import Mathlib.Order.Fin.Basic
import CrudGen.Proofs.Data.Dict
import CrudGen.Proofs.Graph.Tower

/-!
# Graphs — the depth-first walk finds the components

`Walk.Sound` is what every state of a walk satisfies: its stack is a `Tower`, its marks agree with
its stack and its components, and its components are `Settled`. `Sound.step` shows that one step
keeps it and `Sound.run` that a whole run does. The walk has no bound on the number of its steps. No
infinite sequence of them exists, from whatever state it is started (`wellFounded_steps`).

Main results:

* `Graph.settled_components` — the components are whole, disjoint, ascending, and each one comes
  after those that it has an edge to.
* `Graph.mem_components` — every vertex is in a component.
* `Graph.components_exact` — for every graph, with any loops, repeated edges and circles: the walk
  ends, and the components it returns hold every vertex once, each in ascending order, are the
  classes of mutual reachability, and come with dependencies first.
-/

namespace CrudGen

variable {n : Nat} {g : Graph n} {cs : List (List (Fin n))}

/-- The stack is cut behind the element that is looked for. -/
theorem cutAfter_append {α : Type} [DecidableEq α] {v : α} {above : List α} (rest : List α)
    (h : v ∉ above) : cutAfter v (above ++ v :: rest) = (above ++ [v], rest) := by
  induction above with
  | nil => simp [cutAfter]
  | cons w above ih =>
    have hw : w ≠ v := fun hwv => h (by simp [hwv])
    rw [List.cons_append, cutAfter, if_neg hw, ih fun hv => h (List.mem_cons_of_mem _ hv)]
    rfl

namespace Walk

open CrudGen.Graph (Tower Segment)

-- ---------------------------------------------------------------------------
-- Marks
-- ---------------------------------------------------------------------------

/-- The index of a vertex on the stack. -/
def index (s : Walk n) (v : Fin n) : Nat :=
  match entry s.marks v with
  | .onStack i => i
  | _ => 0

/-- The walk has been at a vertex. -/
def Seen (s : Walk n) (v : Fin n) : Prop :=
  entry s.marks v ≠ .unseen

/-- The index of a vertex is the one that it is marked with. -/
theorem index_eq {s : Walk n} {v : Fin n} {i : Nat} (h : entry s.marks v = .onStack i) :
    s.index v = i := by
  rw [index, h]

/-- Marking vertices as done changes no other mark. -/
theorem entry_markDone (marks : Vector Mark n) (vs : List (Fin n)) (w : Fin n) :
    entry (markDone marks vs) w = if w ∈ vs then .done else entry marks w := by
  induction vs generalizing marks with
  | nil => simp [markDone]
  | cons v rest ih =>
    rw [markDone, ih, Graph.entry_set]
    by_cases hw : w ∈ rest
    · simp [hw]
    · by_cases hv : w = v <;> simp [hw, hv]

/-- Entering a vertex marks it with the counter. -/
theorem enter_marks (s : Walk n) (v w : Fin n) :
    entry (s.enter g v).marks w = if w = v then .onStack s.counter else entry s.marks w :=
  Graph.entry_set _ _ _ _

/-- The vertex that is entered has the index of the counter. -/
theorem enter_index_self (s : Walk n) (v : Fin n) : (s.enter g v).index v = s.counter :=
  index_eq (by rw [enter_marks, if_pos rfl])

/-- Other vertices keep their index. -/
theorem enter_index_of_ne {s : Walk n} {v w : Fin n} (h : w ≠ v) :
    (s.enter g v).index w = s.index w := by
  rw [index, index, enter_marks, if_neg h]

/-- The vertex that is entered has been seen. -/
theorem seen_enter_self (s : Walk n) (v : Fin n) : (s.enter g v).Seen v := by
  rw [Seen, enter_marks, if_pos rfl]
  simp

/-- What has been seen stays so when a vertex is entered. -/
theorem Seen.enter {s : Walk n} {w : Fin n} (h : s.Seen w) (v : Fin n) :
    (s.enter g v).Seen w := by
  rw [Seen, enter_marks]
  split
  · simp
  · exact h

-- ---------------------------------------------------------------------------
-- The invariant
-- ---------------------------------------------------------------------------

/-- The marks of a walk agree with its stack and its components, which are settled. -/
structure Marked (g : Graph n) (s : Walk n) : Prop where
  mem_stack      : ∀ v, v ∈ s.stack ↔ ∃ i, entry s.marks v = .onStack i
  index_lt       : ∀ v ∈ s.stack, s.index v < s.counter
  mem_components : ∀ v, v ∈ s.components.flatten ↔ entry s.marks v = .done
  settled        : g.Settled s.components

/-- The invariant of a walk. -/
structure Sound (g : Graph n) (s : Walk n) : Prop extends Marked g s where
  tower : Tower g s.index s.Seen s.frames s.stack

/-- A vertex on the stack has been seen. -/
theorem Marked.ne_of_unseen {s : Walk n} (h : s.Marked g) {v x : Fin n}
    (hv : entry s.marks v = .unseen) (hx : x ∈ s.stack) : x ≠ v := by
  rintro rfl
  obtain ⟨i, hi⟩ := (h.mem_stack x).1 hx
  rw [hi] at hv
  cases hv

/-- Marks are right when a new vertex is entered. -/
theorem Marked.enter {s : Walk n} (h : s.Marked g) {v : Fin n} (hv : entry s.marks v = .unseen) :
    (s.enter g v).Marked g := by
  -- only the mark of `v` changes, and `v` is put on the stack
  refine ⟨fun w => ?_, fun w hw => ?_, fun w => ?_, h.settled⟩
  · rw [enter_marks]
    by_cases hwv : w = v
    · simp [hwv, Walk.enter]
    · rw [if_neg hwv, ← h.mem_stack w]
      simp [Walk.enter, hwv]
  · rcases List.mem_cons.1 hw with rfl | hw
    · rw [enter_index_self]
      exact Nat.lt_succ_self _
    · rw [enter_index_of_ne (h.ne_of_unseen hv hw)]
      exact Nat.lt_succ_of_lt (h.index_lt w hw)
  · rw [enter_marks]
    have hdone := h.mem_components w
    by_cases hwv : w = v
    · subst hwv
      rw [hv] at hdone
      simpa [Walk.enter] using hdone
    · rw [if_neg hwv]
      exact hdone

/-- Entering a vertex over a tower that counts it as seen. -/
theorem Sound.of_enter {s : Walk n} (h : s.Marked g) {v : Fin n} (hv : entry s.marks v = .unseen)
    (hedge : ∀ p ∈ s.frames.head?, g.Edge p.vertex v)
    (htower : Tower g s.index (s.enter g v).Seen s.frames s.stack) : (s.enter g v).Sound g := by
  have hkeep : ∀ x ∈ s.stack, (s.enter g v).index x = s.index x := fun x hx =>
    enter_index_of_ne (h.ne_of_unseen hv hx)
  -- the counter is above every index in use, so the new segment stands on top
  have htop := (htower.congr hkeep fun _ hx => hx).push hedge fun x hx => by
    rw [hkeep x hx, enter_index_self]
    exact h.index_lt x hx
  rw [enter_index_self] at htop
  exact ⟨h.enter hv, htop⟩

/-- Closing a vertex takes the stack down to it, and makes a component of what was above. -/
theorem close_eq {s : Walk n} {v : Fin n} {above below : List (Fin n)}
    (hstack : s.stack = above ++ v :: below) (hv : v ∉ above) :
    s.close v = { s with
      marks := markDone s.marks (above ++ [v])
      stack := below
      components := s.components ++ [ascending (above ++ [v])] } := by
  rw [close, hstack, cutAfter_append below hv]

/-- What has been seen stays so when vertices are done. -/
theorem Seen.markDone {marks : Vector Mark n} {w : Fin n} (h : entry marks w ≠ .unseen)
    (vs : List (Fin n)) : entry (Walk.markDone marks vs) w ≠ .unseen := by
  rw [entry_markDone]
  split
  · simp
  · exact h

/-- The segment of a frame that leads no further down than to its own vertex is a component: edges
out of it end in it or in a component made before. -/
theorem Sound.settled_segment {s : Walk n} (h : s.Sound g) {f : Frame n}
    {above below : List (Fin n)}
    (hstack : s.stack = above ++ f.vertex :: below)
    (hfacts : Segment g s.index s.Seen f above below) (htodo : f.todo = [])
    (hroot : s.index f.vertex = f.lowlink) :
    g.Settled (s.components ++ [ascending (above ++ [f.vertex])]) := by
  have hmem : ∀ x, x ∈ ascending (above ++ [f.vertex]) ↔ x ∈ above ∨ x = f.vertex := by
    intro x
    rw [mem_ascending, List.mem_append, List.mem_singleton]
  have hlinked : ∀ x, x ∈ above ∨ x = f.vertex → g.Mutual f.vertex x := by
    rintro x (hx | rfl)
    · exact hfacts.linked x hx
    · exact .refl _
  refine h.settled.concat ?_ (pairwise_ascending _) ?_ ?_ ?_
  · exact List.ne_nil_of_mem ((hmem f.vertex).2 (Or.inr rfl))
  · -- what is on the stack is in no component yet
    intro x hx hdone
    have hxs : x ∈ s.stack := by
      rw [hstack]
      rcases (hmem x).1 hx with hx | rfl <;> simp_all
    obtain ⟨i, hi⟩ := (h.mem_stack x).1 hxs
    rw [(h.mem_components x).1 hdone] at hi
    cases hi
  · -- any two members reach each other by way of the frame's vertex
    intro x hx y hy
    exact (hlinked x ((hmem x).1 hx)).symm.trans (hlinked y ((hmem y).1 hy))
  · -- the frame has nothing left to do, so every edge of a member was followed
    intro x hx w hxw
    have hexp : Graph.Explored g f above x w := by
      rcases (hmem x).1 hx with hx | rfl
      · exact ⟨hxw, Or.inl hx⟩
      · exact ⟨hxw, Or.inr ⟨rfl, by simp [htodo]⟩⟩
    cases hm : entry s.marks w with
    | unseen => exact absurd hm (hfacts.seen x w hexp)
    | done => exact Or.inl ((h.mem_components w).2 hm)
    | onStack i =>
      have hws : w ∈ above ++ f.vertex :: below := hstack ▸ (h.mem_stack w).2 ⟨i, hm⟩
      have hle := hfacts.low_le x w hexp hws
      refine Or.inr ((hmem w).2 ?_)
      rcases List.mem_append.1 hws with hw | hw
      · exact Or.inl hw
      rcases List.mem_cons.1 hw with hw | hw
      · exact Or.inr hw
      · -- below the frame's vertex, an index would be less than the lowlink
        have := hfacts.below w hw
        omega

/-- Closing the component of the uppermost frame. -/
theorem Sound.close {s : Walk n} (h : s.Sound g) {f : Frame n} {rest : List (Frame n)}
    (hframes : s.frames = f :: rest) (htodo : f.todo = [])
    (hroot : entry s.marks f.vertex = .onStack f.lowlink) :
    ({ s with frames := lower f.lowlink rest }.close f.vertex).Sound g := by
  have htower := h.tower
  rw [hframes] at htower
  obtain ⟨above, below, hst, hbelow, -, hfacts⟩ := htower.top
  have hindex : s.index f.vertex = f.lowlink := index_eq hroot
  have hv : f.vertex ∉ above := fun hv => Nat.lt_irrefl _ (hfacts.above _ hv)
  have hdisj : ∀ x ∈ below, x ∉ above ++ [f.vertex] := by
    intro x hx hmem
    have hx' : x ∈ above ∨ x = f.vertex := by simpa using hmem
    exact Nat.lt_irrefl _ (hfacts.below_lt hx hx')
  -- the root's index lowers nothing below it, so its return is a plain one
  have hlower : lower f.lowlink rest = rest :=
    hbelow.lower_eq fun x hx => hindex ▸ hfacts.below x hx
  rw [hlower, close_eq (s := { s with frames := rest }) hst hv]
  have hmarks : ∀ x ∈ below,
      entry (markDone s.marks (above ++ [f.vertex])) x = entry s.marks x := by
    intro x hx
    rw [entry_markDone, if_neg (hdisj x hx)]
  have hkeep : ∀ x ∈ below, ({ s with
      frames := rest
      marks := markDone s.marks (above ++ [f.vertex])
      stack := below
      components := s.components ++ [ascending (above ++ [f.vertex])] } : Walk n).index x =
        s.index x := by
    intro x hx
    rw [index, index, hmarks x hx]
  refine ⟨⟨fun w => ?_, fun w hw => ?_, fun w => ?_,
    h.settled_segment hst hfacts htodo hindex⟩, ?_⟩
  · -- the stack loses exactly what is marked done
    rw [entry_markDone]
    split
    · rename_i hw
      exact ⟨fun hwb => absurd hw (hdisj w hwb), fun ⟨i, hi⟩ => by cases hi⟩
    · rename_i hw
      rw [← h.mem_stack w, hst]
      simp only [List.mem_append, List.mem_cons] at hw ⊢
      tauto
  · rw [hkeep w hw]
    exact h.index_lt w (by simp [hst, hw])
  · -- and the components gain exactly that
    rw [List.flatten_append, List.mem_append, h.mem_components w, List.flatten_singleton,
      mem_ascending, entry_markDone]
    split
    · rename_i hw
      exact ⟨fun _ => rfl, fun _ => Or.inr hw⟩
    · rename_i hw
      exact ⟨fun hdone => hdone.resolve_right hw, Or.inl⟩
  · exact hbelow.congr hkeep fun x hx => Seen.markDone hx _

/-- One step keeps the invariant. -/
theorem Sound.step {s s' : Walk n} (h : s.Sound g) (hs : s.step g = some s') : s'.Sound g := by
  obtain ⟨f, rest, hf, hstep⟩ := step_cases g hs
  have htower := h.tower
  rw [hf] at htower
  cases hstep with
  | @enter w todo hw hm =>
    -- the edge counts as followed for the frame below before the vertex is entered
    have hws : w ∉ s.stack := fun hws => h.ne_of_unseen hm hws rfl
    have hseen : ∀ x, s.Seen x → (s.enter g w).Seen x := fun x hx => hx.enter w
    refine Sound.of_enter (s := { s with frames := { f with todo } :: rest })
      ⟨h.mem_stack, h.index_lt, h.mem_components, h.settled⟩ hm (fun p hp => ?_) ?_
    · obtain rfl : { f with todo } = p := by simpa using hp
      obtain ⟨_, _, _, _, _, hfacts⟩ := htower.top
      exact hfacts.todo w (by simp [hw])
    · exact (htower.congr (fun _ _ => rfl) hseen).advance hw (seen_enter_self s w) (Nat.le_refl _)
        (fun hmem => absurd hmem hws) (Or.inl rfl)
  | @meet w todo i hw hm =>
    -- the vertex is on the stack: its index may lower the frame's lowlink
    have hws : w ∈ s.stack := (h.mem_stack w).2 ⟨i, hm⟩
    have hseen : s.Seen w := by
      rw [Seen, hm]
      simp
    refine ⟨⟨h.mem_stack, h.index_lt, h.mem_components, h.settled⟩,
      htower.advance hw hseen (Nat.min_le_left _ _) (fun _ => ?_) ?_⟩
    · rw [index_eq hm]
      exact Nat.min_le_right _ _
    · rw [index_eq hm]
      rcases Nat.le_total f.lowlink i with hle | hle
      · exact Or.inl (Nat.min_eq_left hle)
      · exact Or.inr ⟨hws, Nat.min_eq_right hle⟩
  | @pass w todo hw hm =>
    -- the vertex is in a component already and does not count
    have hws : w ∉ s.stack := by
      intro hws
      obtain ⟨i, hi⟩ := (h.mem_stack w).1 hws
      rw [hm] at hi
      cases hi
    have hseen : s.Seen w := by
      rw [Seen, hm]
      simp
    exact ⟨⟨h.mem_stack, h.index_lt, h.mem_components, h.settled⟩,
      htower.advance hw hseen (Nat.le_refl _) (fun hmem => absurd hmem hws) (Or.inl rfl)⟩
  | close hw hm => exact h.close hf hw hm
  | leave hw hm =>
    -- the vertex leads further down, so there is a frame below that takes its segment
    refine ⟨⟨h.mem_stack, h.index_lt, h.mem_components, h.settled⟩, ?_⟩
    obtain ⟨above, below, hst, hbelow, hedge, hfacts⟩ := htower.top
    obtain ⟨i, hi⟩ := (h.mem_stack f.vertex).1 (by simp [hst])
    have hlow : f.lowlink ≠ s.index f.vertex := by
      rw [index_eq hi]
      rintro hlow
      exact hm (hlow ▸ hi)
    cases rest with
    | nil =>
      -- the lowest frame leads no further down, so it is not left without a component
      cases hbelow
      obtain ⟨u, hu, hulow, -⟩ := hfacts.low
      obtain rfl : u = f.vertex := by simpa using hu
      exact absurd hulow.symm hlow
    | cons p rest => exact htower.merge hw hlow

/-- What has been seen stays so in every step. -/
theorem Seen.step {s s' : Walk n} {v : Fin n} (h : s.Seen v) (hs : s.step g = some s') :
    s'.Seen v := by
  obtain ⟨f, rest, hf, hstep⟩ := step_cases g hs
  cases hstep with
  | enter hw hm => exact Seen.enter (g := g) (s := { s with frames := _ }) h _
  | meet hw hm => exact h
  | pass hw hm => exact h
  | close hw hm => exact Seen.markDone h _
  | leave hw hm => exact h

-- ---------------------------------------------------------------------------
-- Runs and visits
-- ---------------------------------------------------------------------------

/-- A walk ends only without frames. -/
theorem frames_eq_nil {s : Walk n} (h : s.step g = none) : s.frames = [] := by
  unfold step at h
  split at h
  · assumption
  · split at h
    · dsimp only at h
      split at h <;> cases h
    · cases h

/-- A run keeps the invariant and what is seen, and leaves no frame. -/
theorem Sound.run {s : Walk n} (h : s.Sound g) :
    (s.run g).Sound g ∧ (s.run g).frames = [] ∧ ∀ v, s.Seen v → (s.run g).Seen v := by
  -- along the steps of the run, which ends where no frame is left
  induction s using Walk.run.induct g with
  | case1 s hs =>
    rw [Walk.run, hs]
    exact ⟨h, frames_eq_nil hs, fun _ hv => hv⟩
  | case2 s s' hs ih =>
    obtain ⟨hsound, hframes, hseen⟩ := ih (h.step hs)
    rw [Walk.run, hs]
    exact ⟨hsound, hframes, fun v hv => hseen v (hv.step hs)⟩

/-- The invariant holds at the start. -/
theorem Sound.start : ({} : Walk n).Sound g := by
  refine ⟨⟨fun v => ?_, by simp, fun v => ?_, .nil⟩, .nil⟩ <;> simp [Graph.entry_eq_getElem]

/-- Between two visits the walk is on no frame. -/
theorem Sound.visit {s : Walk n} (h : s.Sound g) (hframes : s.frames = []) (v : Fin n) :
    (s.visit g v).Sound g ∧ (s.visit g v).frames = [] ∧ (s.visit g v).Seen v ∧
      ∀ w, s.Seen w → (s.visit g v).Seen w := by
  unfold Walk.visit
  split
  · rename_i hv
    have henter : (s.enter g v).Sound g := by
      refine Sound.of_enter h.toMarked hv (by simp [hframes]) ?_
      exact h.tower.congr (fun _ _ => rfl) fun x hx => hx.enter v
    obtain ⟨hsound, hrun, hseen⟩ := henter.run
    exact ⟨hsound, hrun, hseen v (seen_enter_self s v), fun w hw => hseen w (hw.enter v)⟩
  · rename_i hv
    exact ⟨h, hframes, hv, fun _ hw => hw⟩

/-- Visits keep the invariant, and in the end every visited vertex is seen. -/
theorem Sound.visits {s : Walk n} (h : s.Sound g) (hframes : s.frames = []) (vs : List (Fin n)) :
    (vs.foldl (Walk.visit g) s).Sound g ∧ (vs.foldl (Walk.visit g) s).frames = [] ∧
      ∀ w, s.Seen w ∨ w ∈ vs → (vs.foldl (Walk.visit g) s).Seen w := by
  induction vs generalizing s with
  | nil => exact ⟨h, hframes, fun w hw => by simpa using hw⟩
  | cons v rest ih =>
    obtain ⟨hsound, hnil, hv, hkeep⟩ := h.visit hframes v
    obtain ⟨hsound', hnil', hseen⟩ := ih hsound hnil
    refine ⟨hsound', hnil', fun w hw => hseen w ?_⟩
    rcases hw with hw | hw
    · exact Or.inl (hkeep w hw)
    · rcases List.mem_cons.1 hw with rfl | hw
      · exact Or.inl hv
      · exact Or.inr hw

-- ---------------------------------------------------------------------------
-- The end of the walk
-- ---------------------------------------------------------------------------

/-- One step leads from a state of the walk to another. -/
def Steps (g : Graph n) (s s' : Walk n) : Prop :=
  s.step g = some s'

/-- Nothing can be stepped without end. -/
theorem wellFounded_steps (g : Graph n) : WellFounded fun s' s : Walk n => s.Steps g s' :=
  Subrelation.wf (fun h => step_decreases g h)
    (InvImage.wf (fun s : Walk n => (s.unseen, s.left))
      (Prod.lex Nat.lt_wfRel Nat.lt_wfRel).wf)

/-- A run makes steps until none is left to make. -/
theorem run_ends (g : Graph n) (s : Walk n) :
    Relation.ReflTransGen (Steps g) s (s.run g) ∧ ∀ s', ¬ (s.run g).Steps g s' := by
  induction s using Walk.run.induct g with
  | case1 s hs =>
    rw [Walk.run, hs]
    exact ⟨.refl, fun s' hs' => by rw [Steps, hs] at hs'; cases hs'⟩
  | case2 s s' hs ih =>
    rw [Walk.run, hs]
    exact ⟨.head hs ih.1, ih.2⟩

/-- A walk after so many steps, or at its end if it ends before. -/
def after (g : Graph n) : Nat → Walk n → Walk n
  | 0, s => s
  | k + 1, s => (s.step g).elim s (after g k)

/-- Steps made beforehand are steps of the run. -/
theorem run_after (g : Graph n) (k : Nat) (s : Walk n) : (s.after g k).run g = s.run g := by
  induction k generalizing s with
  | zero => rfl
  | succ k ih =>
    rw [after]
    cases hs : s.step g with
    | none => rfl
    | some s' =>
      rw [Option.elim_some, ih, Walk.run.eq_def g s, hs]

/-- Where so many steps return to no vertex, they are the run. -/
theorem run_eq_after {k : Nat} {s : Walk n} (h : (s.after g k).frames = []) :
    s.run g = s.after g k := by
  have hend : (s.after g k).step g = none := by rw [Walk.step, h]
  rw [← run_after g k s, Walk.run, hend]

/-- Walks at most `k` steps from a vertex, unless it is seen already, if they return. -/
def visitWithin? (g : Graph n) (k : Nat) (s : Walk n) (v : Fin n) : Option (Walk n) :=
  if entry s.marks v = .unseen then
    some ((s.enter g v).after g k) |>.filter fun s' => s'.frames.isEmpty
  else some s

/-- A visit that ends within some steps is the visit. -/
theorem visit_of_within {k : Nat} {s s' : Walk n} {v : Fin n}
    (h : s.visitWithin? g k v = some s') : s.visit g v = s' := by
  unfold visitWithin? at h
  unfold visit
  split at h
  · obtain ⟨hs, hframes⟩ := Option.filter_eq_some_iff.1 h
    cases hs
    rw [if_pos ‹_›, run_eq_after (List.isEmpty_iff.1 hframes)]
  · rw [if_neg ‹_›]
    exact Option.some.inj h

theorem visits_of_within {k : Nat} {s s' : Walk n} {vs : List (Fin n)}
    (h : vs.foldlM (visitWithin? g k) s = some s') : vs.foldl (visit g) s = s' := by
  induction vs generalizing s with
  | nil => exact Option.some.inj h
  | cons v vs ih =>
    rw [List.foldlM_cons] at h
    obtain ⟨s₁, h₁, h⟩ := Option.bind_eq_some_iff.1 h
    rw [List.foldl_cons, visit_of_within h₁]
    exact ih h

end Walk

namespace Graph

/-- The components of a graph, where at most `k` steps are needed for each vertex. The kernel can
compute them, as it cannot the run of a walk. -/
def componentsWithin? (g : Graph n) (k : Nat) : Option (List (List (Fin n))) :=
  ((List.finRange n).foldlM (Walk.visitWithin? g k) {}).map (·.components)

theorem components_of_within {k : Nat} (h : g.componentsWithin? k = some cs) :
    g.components = cs := by
  obtain ⟨s, hs, rfl⟩ := Option.map_eq_some_iff.1 h
  rw [components, Walk.visits_of_within hs]

/-- The components of a graph are whole, and each one comes after those that it has an edge to. -/
theorem settled_components (g : Graph n) : g.Settled g.components :=
  (Walk.Sound.start.visits rfl (List.finRange n)).1.settled

/-- Every vertex is in a component. -/
theorem mem_components (g : Graph n) (v : Fin n) : v ∈ g.components.flatten := by
  obtain ⟨hsound, hframes, hseen⟩ := (Walk.Sound.start (g := g)).visits rfl (List.finRange n)
  refine (hsound.mem_components v).2 ?_
  -- without a frame there is no stack, so what is seen is in a component
  have htower := hsound.tower
  rw [hframes] at htower
  cases hm : entry ((List.finRange n).foldl (Walk.visit g) {}).marks v with
  | unseen => exact absurd hm (hseen v (Or.inr (List.mem_finRange v)))
  | done => rfl
  | onStack i =>
    have hv := (hsound.mem_stack v).2 ⟨i, hm⟩
    generalize hst : ((List.finRange n).foldl (Walk.visit g) {}).stack = stack at htower hv
    cases htower
    simp at hv

/-- Whole components that hold every vertex are the classes of mutual reachability. -/
theorem Settled.together_iff (h : g.Settled cs) (hall : ∀ v, v ∈ cs.flatten) (u v : Fin n) :
    (∃ c ∈ cs, u ∈ c ∧ v ∈ c) ↔ g.Mutual u v := by
  constructor
  · rintro ⟨c, hc, hu, hv⟩
    exact (h.mem_iff c hc u hu v).1 hv
  · intro huv
    obtain ⟨c, hc, hu⟩ := List.mem_flatten.1 (hall u)
    exact ⟨c, hc, hu, (h.mem_iff c hc u hu v).2 huv⟩

/-- The walk ends from wherever it is started. The components that it returns are a partition of the
vertices into ascending lists; two vertices are together just if each reaches the other, and an edge
from one component to another leads to one that was returned before. -/
theorem components_exact (g : Graph n) :
    (WellFounded fun s' s : Walk n => s.Steps g s') ∧
      (∀ s : Walk n, Relation.ReflTransGen (Walk.Steps g) s (s.run g) ∧
        ∀ s', ¬ (s.run g).Steps g s') ∧
      g.components.flatten.Perm (List.finRange n) ∧
      (∀ c ∈ g.components, c ≠ [] ∧ c.Pairwise (· < ·)) ∧
      (∀ u v, (∃ c ∈ g.components, u ∈ c ∧ v ∈ c) ↔ g.Mutual u v) ∧
      ∀ (i j : Fin g.components.length) (u v : Fin n), u ∈ elementAt g.components i →
        v ∈ elementAt g.components j → g.Edge u v → i ≠ j → j < i := by
  have hsettled := settled_components g
  have hall := mem_components g
  refine ⟨Walk.wellFounded_steps g, Walk.run_ends g, hsettled.perm_finRange hall, ?_, ?_, ?_⟩
  · exact fun c hc => ⟨hsettled.ne_nil c hc, hsettled.sorted c hc⟩
  · exact hsettled.together_iff hall
  · exact fun i j u v hu hv huv hij => hsettled.lt_of_edge hu hv huv hij

-- two circles that meet in a vertex, a third one with a loop, an edge out of it, and an edge twice
private def threeCircles : Graph 5 :=
  #v[[1], [0, 2, 2], [1], [4, 0], [3, 4]]

/-- Circles that meet are one component, and an edge into them comes from a later one. -/
theorem components_exact_of_circles :
    threeCircles.components.flatten.Perm (List.finRange 5) ∧
      threeCircles.Mutual 0 2 ∧ ¬ threeCircles.Mutual 0 3 ∧
      ∃ i j : Fin threeCircles.components.length, 3 ∈ elementAt threeCircles.components i ∧
        0 ∈ elementAt threeCircles.components j ∧ j < i := by
  obtain ⟨-, -, hperm, -, htogether, hbefore⟩ := components_exact threeCircles
  have hthere : threeCircles.Reaches 0 2 :=
    .trans (Edge.reaches List.mem_cons_self : threeCircles.Reaches 0 1)
      (Edge.reaches (List.mem_cons_of_mem 0 List.mem_cons_self))
  have hback : threeCircles.Reaches 2 0 :=
    .trans (Edge.reaches List.mem_cons_self : threeCircles.Reaches 2 1)
      (Edge.reaches List.mem_cons_self)
  have hedge : threeCircles.Edge 3 0 := List.mem_cons_of_mem 4 List.mem_cons_self
  -- no edge leads out of the two circles that meet
  have hclosed : ∀ v w : Fin 5, w ∈ threeCircles.successors v → v < 3 → w < 3 := by decide
  have happart : ¬ threeCircles.Mutual 0 3 := fun hmutual =>
    absurd (hmutual.1.closed hclosed (by decide)) (by decide)
  obtain ⟨c, hc, h3⟩ := List.mem_flatten.1 (mem_components threeCircles 3)
  obtain ⟨d, hd, h0⟩ := List.mem_flatten.1 (mem_components threeCircles 0)
  obtain ⟨i, rfl⟩ := exists_elementAt hc
  obtain ⟨j, rfl⟩ := exists_elementAt hd
  have hne : i ≠ j := fun heq => happart ((htogether 0 3).1 ⟨_, hd, h0, heq ▸ h3⟩)
  exact ⟨hperm, ⟨hthere, hback⟩, happart, i, j, h3, h0, hbefore i j 3 0 h3 h0 hedge hne⟩

end Graph

end CrudGen
