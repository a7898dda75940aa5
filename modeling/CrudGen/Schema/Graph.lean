import CrudGen.Data.Dict

/-!
# Directed graphs

A graph lists the successors of each of its vertices. `Graph.components` walks it depth first, one
`Walk.step` at a time, and closes a strongly connected component when the walk leaves the vertex
that it entered the component by. A component is closed after those that it reaches.
-/

namespace CrudGen

/-- For every vertex, the vertices it has an edge to. -/
abbrev Graph (n : Nat) := Vector (List (Fin n)) n

/-- The entry of a vertex, where there is one for each. -/
def entry {n : Nat} (xs : Vector α n) (v : Fin n) : α :=
  xs[v]

/-- The element at a place in a list. -/
def elementAt (xs : List α) (i : Fin xs.length) : α :=
  xs[i]

namespace Graph

variable {n : Nat}

/-- The vertices that a vertex has an edge to. -/
def successors (g : Graph n) (v : Fin n) : List (Fin n) :=
  entry g v

/-- The graph with every edge turned round. -/
def transpose (g : Graph n) : Graph n :=
  .ofFn fun v => (List.finRange n).filter fun u => (g.successors u).contains v

/-- The graph of the parts of a partition: a part has an edge to every other part that one of its
vertices has an edge into. -/
def condensation (g : Graph n) (parts : List (List (Fin n))) : Graph parts.length :=
  .ofFn fun c =>
    let hits := ((elementAt parts c).flatMap g.successors).filterMap fun w =>
      parts.findFinIdx? fun part => part.contains w
    ascending (hits.filter (· != c))

end Graph

/-- How far a walk is with a vertex: not there yet, in no component yet, or in a component. -/
inductive Mark where
  | unseen
  | onStack (index : Nat)
  | done
  deriving DecidableEq, Repr, Inhabited

/-- A vertex whose edges are being followed. `lowlink` is the least index it is known to lead to,
`todo` are the successors to come. -/
structure Frame (n : Nat) where
  vertex : Fin n
  lowlink : Nat
  todo : List (Fin n)
  deriving Repr

/-- A depth-first walk: vertices get their index from `counter` as they are seen, `stack` are those
in no component yet, the last one first, and `frames` are the vertices the walk returns to. -/
structure Walk (n : Nat) where
  counter : Nat := 0
  marks : Vector Mark n := .replicate n .unseen
  stack : List (Fin n) := []
  components : List (List (Fin n)) := []
  frames : List (Frame n) := []
  deriving Repr

/-- A list cut behind the first `v`. -/
def cutAfter [DecidableEq α] (v : α) : List α → List α × List α
  | [] => ([], [])
  | w :: rest =>
    if w = v then ([w], rest)
    else
      let (taken, left) := cutAfter v rest
      (w :: taken, left)

namespace Walk

variable {n : Nat} (g : Graph n)

/-- Goes to a vertex that is not seen yet. -/
def enter (s : Walk n) (v : Fin n) : Walk n :=
  { s with
    counter := s.counter + 1
    marks := s.marks.set v (.onStack s.counter)
    stack := v :: s.stack
    frames := { vertex := v, lowlink := s.counter, todo := g.successors v } :: s.frames }

/-- Marks vertices as being in a component. -/
def markDone (marks : Vector Mark n) : List (Fin n) → Vector Mark n
  | [] => marks
  | v :: rest => markDone (marks.set v .done) rest

/-- Makes a component of the stack down to `v`. -/
def close (s : Walk n) (v : Fin n) : Walk n :=
  let (members, left) := cutAfter v s.stack
  { s with
    marks := markDone s.marks members
    stack := left
    components := s.components ++ [ascending members] }

/-- What the uppermost vertex leads to, once a successor of it leads to `index`. -/
def lower (index : Nat) : List (Frame n) → List (Frame n)
  | [] => []
  | f :: rest => { f with lowlink := min f.lowlink index } :: rest

/-- Follows one edge of the uppermost vertex, or leaves it if it has no more. -/
def step (s : Walk n) : Option (Walk n) :=
  match s.frames with
  | [] => none
  | f :: rest =>
    match f.todo with
    | w :: todo =>
      let s := { s with frames := { f with todo } :: rest }
      match entry s.marks w with
      | .unseen => some (s.enter g w)
      | .onStack index => some { s with frames := lower index s.frames }
      | .done => some s
    | [] =>
      let s := { s with frames := lower f.lowlink rest }
      some (if entry s.marks f.vertex = .onStack f.lowlink then s.close f.vertex else s)

/-- How many vertices are not seen yet. -/
def unseen (s : Walk n) : Nat :=
  s.marks.count .unseen

/-- How many steps are left before the walk sees another vertex or ends. -/
def left (s : Walk n) : Nat :=
  s.frames.foldr (fun f k => f.todo.length + 1 + k) 0

theorem left_lower (index : Nat) (s : Walk n) (fs : List (Frame n)) :
    { s with frames := lower index fs }.left = { s with frames := fs }.left := by
  cases fs <;> rfl

theorem count_markDone_le (marks : Vector Mark n) (vs : List (Fin n)) :
    (markDone marks vs).count .unseen ≤ marks.count .unseen := by
  induction vs generalizing marks with
  | nil => exact Nat.le_refl _
  | cons v rest ih =>
    refine Nat.le_trans (ih _) ?_
    rw [Vector.count_set]
    exact Nat.sub_le _ _

theorem unseen_close_le (s : Walk n) (v : Fin n) : (s.close v).unseen ≤ s.unseen :=
  count_markDone_le _ _

theorem unseen_enter_lt {s : Walk n} {v : Fin n} (h : entry s.marks v = .unseen) :
    (s.enter g v).unseen < s.unseen := by
  have hpos : 0 < s.marks.count .unseen :=
    Vector.count_pos_iff.2 (h ▸ Vector.getElem_mem _)
  have hv : s.marks[v.1] = .unseen := h
  have hne : (Mark.onStack s.counter == Mark.unseen) = false := rfl
  simp only [unseen, enter, Vector.count_set, hv, hne, beq_self_eq_true, if_true]
  exact Nat.sub_lt hpos Nat.one_pos

/-- What a step does to a walk with an uppermost frame. -/
inductive Step (s : Walk n) (f : Frame n) (rest : List (Frame n)) : Walk n → Prop
  | enter {w : Fin n} {todo : List (Fin n)} (next : f.todo = w :: todo)
      (mark : entry s.marks w = .unseen) :
      Step s f rest ({ s with frames := { f with todo } :: rest }.enter g w)
  | meet {w : Fin n} {todo : List (Fin n)} {index : Nat} (next : f.todo = w :: todo)
      (mark : entry s.marks w = .onStack index) :
      Step s f rest
        { s with frames := { f with todo, lowlink := min f.lowlink index } :: rest }
  | pass {w : Fin n} {todo : List (Fin n)} (next : f.todo = w :: todo)
      (mark : entry s.marks w = .done) :
      Step s f rest { s with frames := { f with todo } :: rest }
  | close (next : f.todo = []) (mark : entry s.marks f.vertex = .onStack f.lowlink) :
      Step s f rest ({ s with frames := lower f.lowlink rest }.close f.vertex)
  | leave (next : f.todo = []) (mark : entry s.marks f.vertex ≠ .onStack f.lowlink) :
      Step s f rest { s with frames := lower f.lowlink rest }

theorem step_cases {s s' : Walk n} (h : s.step g = some s') :
    ∃ f rest, s.frames = f :: rest ∧ Step g s f rest s' := by
  unfold step at h
  split at h
  · cases h
  · rename_i f rest hf
    refine ⟨f, rest, hf, ?_⟩
    -- a frame with neighbours left looks at the next of them
    split at h
    · rename_i w todo hw
      dsimp only at h
      split at h
      · rename_i hm
        cases h
        exact .enter hw hm
      · rename_i hm
        cases h
        exact .meet hw hm
      · rename_i hm
        cases h
        exact .pass hw hm
    -- a frame without leaves the walk, and closes a component if it is its root
    · rename_i hw
      dsimp only at h
      split at h
      · rename_i hm
        cases h
        exact .close hw hm
      · rename_i hm
        cases h
        exact .leave hw hm

/-- A step sees another vertex or uses up an edge or a frame. -/
theorem step_decreases {s s' : Walk n} (h : s.step g = some s') :
    Prod.Lex (· < ·) (· < ·) (s'.unseen, s'.left) (s.unseen, s.left) := by
  obtain ⟨f, rest, hf, hstep⟩ := step_cases g h
  have hdrop : { s with frames := lower f.lowlink rest }.left < s.left := by
    rw [left_lower]
    simp [left, hf]
  cases hstep with
  | enter hw hm => exact .left _ _ (unseen_enter_lt g hm)
  | meet hw hm => exact .right _ (by simp [left, hf, hw])
  | pass hw hm => exact .right _ (by simp [left, hf, hw])
  | close hw hm =>
    rcases Nat.lt_or_eq_of_le (unseen_close_le { s with frames := lower f.lowlink rest } f.vertex)
      with hlt | heq
    · exact .left _ _ hlt
    · exact heq ▸ .right _ hdrop
  | leave hw hm => exact .right _ hdrop

/-- Goes on until the walk returns to no vertex. -/
def run (s : Walk n) : Walk n :=
  match _h : s.step g with
  | none => s
  | some s' => s'.run
termination_by (s.unseen, s.left)
decreasing_by exact step_decreases g _h

/-- Walks from a vertex, unless it is seen already. -/
def visit (s : Walk n) (v : Fin n) : Walk n :=
  if entry s.marks v = .unseen then (s.enter g v).run g else s

end Walk

/-- The strongly connected components of a graph, each in ascending order. A component comes after
those that it reaches. -/
def Graph.components (g : Graph n) : List (List (Fin n)) :=
  ((List.finRange n).foldl (Walk.visit g) {}).components

end CrudGen
