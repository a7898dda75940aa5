import CrudGen.Schema.Basic
import CrudGen.Schema.Graph

/-!
# Generation order

An entity comes after the entities that its foreign keys refer to. Entities that refer to each
other in a circle stand together and are reported. Among what may come next, the entity declared
first does.

The components of the dependencies wait in a `Queue`, each with a count of those it still waits
for. Counts are checked: taking one off a count of zero has no result.
-/

namespace CrudGen

/-- Whether a relationship makes its owner depend on its target. -/
def Relationship.isDependency (r : Relationship) : Bool :=
  (r.kind == .manyToOne || r.kind == .oneToOne) && !r.isSelfReference

/-- The dependencies among entities, known by their places in the list. -/
def dependencyGraph (entities : List String) (relationships : List Relationship) :
    Graph entities.length :=
  .ofFn fun i =>
    if entities.finIdxOf? (elementAt entities i) = some i then
      ascending <| relationships.filterMap fun r =>
        if r.isDependency && r.owner == elementAt entities i then entities.finIdxOf? r.target
        else none
    else []

/-- Vertices in line: `remaining` counts those that a vertex still waits for, `ready` holds those
that may come next under their ranks. -/
structure Queue (k : Nat) where
  remaining : Vector Nat k
  ready : Dict Nat (Fin k)
  deriving Repr

namespace Queue

variable {k : Nat} (rank : Fin k → Nat)

/-- Everyone in line, given the vertices that each one waits for. -/
def start (waits : Graph k) : Queue k :=
  { remaining := waits.map List.length
    ready := Dict.ofList <|
      ((List.finRange k).filter fun c => (waits.successors c).isEmpty).map fun c => (rank c, c) }

/-- Takes one off what a vertex waits for. -/
def release? (q : Queue k) (c : Fin k) : Option (Queue k) :=
  match entry q.remaining c with
  | 0 => none
  | r + 1 => some {
      remaining := q.remaining.set c r c.isLt
      ready := if r = 0 then q.ready.insert (rank c) c else q.ready }

/-- How many releases and departures a queue has before it. -/
def left (q : Queue k) : Nat :=
  q.remaining.toList.foldr (· + ·) 0 + q.ready.length

theorem foldr_set_of_getElem {xs : List Nat} {i r : Nat} (hi : i < xs.length)
    (h : xs[i] = r + 1) : (xs.set i r).foldr (· + ·) 0 + 1 = xs.foldr (· + ·) 0 := by
  induction xs generalizing i with
  | nil => simp at hi
  | cons x rest ih =>
    cases i with
    | zero =>
      have hx : x = r + 1 := h
      simp [hx]
      omega
    | succ i =>
      have hrest := ih (by simpa using hi) (by simpa using h)
      simp only [List.set_cons_succ, List.foldr_cons]
      omega

theorem left_release_le {q q' : Queue k} {c : Fin k} (h : q.release? rank c = some q') :
    q'.left ≤ q.left := by
  unfold release? at h
  split at h
  · cases h
  · rename_i r hr
    cases h
    have hlen : c.1 < q.remaining.toList.length := by simp
    have hsum := foldr_set_of_getElem hlen hr
    simp only [left, Vector.toList_set]
    split
    · have := Dict.length_insert_le q.ready (rank c) c
      omega
    · omega

theorem left_releases_le {cs : List (Fin k)} {q q' : Queue k}
    (h : cs.foldlM (release? rank) q = some q') : q'.left ≤ q.left := by
  induction cs generalizing q with
  | nil =>
    cases h
    exact Nat.le_refl _
  | cons c rest ih =>
    rw [List.foldlM_cons] at h
    obtain ⟨q₁, h₁, h₂⟩ := Option.bind_eq_some_iff.1 h
    exact Nat.le_trans (ih h₂) (left_release_le rank h₁)

/-- Everyone in the order of leaving: of those ready the one of the least rank leaves, which
releases those that wait for it. -/
def drain? (unblocks : Graph k) (q : Queue k) : Option (List (Fin k)) :=
  match _hq : q.ready with
  | [] => some []
  | (_, c) :: rest =>
    match _h : (unblocks.successors c).foldlM (release? rank) { q with ready := rest } with
    | none => none
    | some q' => (drain? unblocks q').map (c :: ·)
termination_by q.left
decreasing_by
  have := left_releases_le rank _h
  simp only [left, _hq, List.length_cons] at this ⊢
  omega

end Queue

/-- Entities in generation order, and the circles among them. -/
structure GenerationOrder where
  order : List String := []
  cycles : List Cycle := []
  deriving DecidableEq, Repr, Inhabited

/-- The place of the first member of a component. -/
def firstPlace {n : Nat} (component : List (Fin n)) : Nat :=
  match component with
  | [] => n
  | v :: _ => v

/-- The components of a graph in line: one after those it has an edge to, and of several that may
come next the one with the first member. -/
def Graph.schedule? {n : Nat} (g : Graph n) : Option (List (List (Fin n))) :=
  let components := g.components
  let waits := g.condensation components
  let rank (c : Fin components.length) : Nat := firstPlace (elementAt components c)
  (Queue.drain? rank waits.transpose (.start rank waits)).map fun places =>
    places.map (elementAt components)

/-- The generation order of entities given in declaration order, if no count goes wrong. -/
def generationOrder? (entities : List String) (relationships : List Relationship) :
    Option GenerationOrder :=
  (dependencyGraph entities relationships).schedule?.map fun components =>
    let groups := components.map fun vs => vs.map (elementAt entities)
    { order := groups.flatten
      cycles := (groups.filter fun names => 1 < names.length).map Cycle.mk }

/-- The generation order of entities given in declaration order. -/
def generationOrder (entities : List String) (relationships : List Relationship) :
    GenerationOrder :=
  (generationOrder? entities relationships).getD {}

end CrudGen
