import CrudGen.Proofs.Graph.Walk
import CrudGen.Proofs.Schema.Queue

/-!
# Schemas — the generation order

The condensation of a graph has an edge wherever an edge of the graph leads from one component into
another. As components are made after those that they have an edge to, its edges lead to earlier
components only, so a queue of them drains. `DependsOn` is the dependency between different entities
that a many-to-one or one-to-one relationship makes, and `SameComponent` relates entities that depend
on each other, directly or through others. `DependenciesFirst` is what a generation order has to
satisfy.

Main results:

* `Graph.schedule?_settled` — what comes out of the queue: the same components, settled in their new
  order as they were in the old one.
* `generationOrder_settled` — the order and the reports as made of settled components.
* `perm_order` — the order has the entities, each as often.
* `generationOrder_dependenciesFirst` — distinct entities are put into such an order, and no count
  of the queue of components goes wrong on the way.
-/

namespace CrudGen.Graph

-- ---------------------------------------------------------------------------
-- Components in line
-- ---------------------------------------------------------------------------

variable {n : Nat} {g : Graph n} {cs : List (List (Fin n))}

-- ---------------------------------------------------------------------------
-- The condensation
-- ---------------------------------------------------------------------------

/-- The component that a vertex is looked up in is the one that holds it. -/
theorem Settled.findFinIdx?_eq_some (h : g.Settled cs) {w : Fin n} {b : Fin cs.length} :
    cs.findFinIdx? (fun part => part.contains w) = some b ↔ w ∈ elementAt cs b := by
  rw [List.findFinIdx?_eq_some_iff]
  simp only [List.contains_iff_mem]
  refine ⟨And.left, fun hw => ⟨hw, fun j hj hwj => ?_⟩⟩
  exact Nat.ne_of_lt hj (congrArg Fin.val (h.eq_of_mem (b := j) hwj hw))

/-- A component leads to another one if one of its vertices has an edge into it. -/
theorem Settled.mem_condensation (h : g.Settled cs) {b c : Fin cs.length} :
    b ∈ (g.condensation cs).successors c ↔
      b ≠ c ∧ ∃ v ∈ elementAt cs c, ∃ w, g.Edge v w ∧ w ∈ elementAt cs b := by
  have hsucc : (g.condensation cs).successors c =
      ascending ((((elementAt cs c).flatMap g.successors).filterMap fun w =>
        cs.findFinIdx? fun part => part.contains w).filter (· != c)) := by
    rw [condensation, successors_ofFn]
  rw [hsucc, mem_ascending, List.mem_filter, List.mem_filterMap, bne_iff_ne, and_comm]
  refine and_congr_right fun _ => ?_
  simp only [h.findFinIdx?_eq_some, List.mem_flatMap]
  constructor
  · rintro ⟨w, ⟨v, hv, hvw⟩, hw⟩
    exact ⟨v, hv, w, hvw, hw⟩
  · rintro ⟨v, hv, w, hvw, hw⟩
    exact ⟨w, ⟨v, hv, hvw⟩, hw⟩

/-- The condensation has edges to earlier components only. -/
theorem Settled.condensation_lt (h : g.Settled cs) (c : Fin cs.length) :
    ∀ b ∈ (g.condensation cs).successors c, b < c := by
  intro b hb
  obtain ⟨hbc, v, hv, w, hvw, hw⟩ := h.mem_condensation.1 hb
  exact h.lt_of_edge hv hw hvw hbc.symm

/-- No component is listed twice among the successors of one. -/
theorem nodup_condensation (c : Fin cs.length) : ((g.condensation cs).successors c).Nodup := by
  rw [condensation, successors_ofFn]
  exact (pairwise_ascending _).imp Fin.ne_of_lt

-- ---------------------------------------------------------------------------
-- Components in line
-- ---------------------------------------------------------------------------

/-- Components differ in their first members. -/
theorem Settled.firstPlace_injective (h : g.Settled cs) :
    Function.Injective fun c : Fin cs.length => firstPlace (elementAt cs c) := by
  have hmem : ∀ c : Fin cs.length, ∃ v ∈ elementAt cs c, v.1 = firstPlace (elementAt cs c) := by
    intro c
    have hne := h.ne_nil _ (elementAt_mem cs c)
    cases hc : elementAt cs c with
    | nil => exact absurd hc hne
    | cons v rest => exact ⟨v, by simp, rfl⟩
  intro b c hbc
  obtain ⟨v, hv, hvb⟩ := hmem b
  obtain ⟨w, hw, hwc⟩ := hmem c
  have hvw : v = w := Fin.ext (by rw [hvb, hwc]; exact hbc)
  exact h.eq_of_mem hv (hvw ▸ hw)

/-- The components in line: no count goes wrong, the order is greedy, and it is a rearrangement of
the components that each one's edges lead back in. -/
theorem schedule?_settled (g : Graph n) :
    ∃ order : List (Fin g.components.length),
      Greedy (g.condensation g.components) (fun c => firstPlace (elementAt g.components c)) []
        order ∧
      g.schedule? = some (order.map (elementAt g.components)) ∧
      (order.map (elementAt g.components)).Perm g.components ∧
      g.Settled (order.map (elementAt g.components)) := by
  have h := settled_components g
  obtain ⟨order, hdrain, hgreedy⟩ := (Queue.Counts.start h.firstPlace_injective).drain
    h.condensation_lt nodup_condensation h.firstPlace_injective
  have hperm : (order.map (elementAt g.components)).Perm g.components := by
    have := hgreedy.perm.map (elementAt g.components)
    rwa [map_elementAt] at this
  refine ⟨order, hgreedy, ?_, hperm, ?_⟩
  · rw [schedule?, hdrain]
    rfl
  · -- all facts but the last are about the components as a set
    refine ⟨hperm.flatten.nodup_iff.2 h.nodup, fun c hc => h.ne_nil c (hperm.mem_iff.1 hc),
      fun c hc => h.sorted c (hperm.mem_iff.1 hc), fun c hc => h.mem_iff c (hperm.mem_iff.1 hc), ?_⟩
    -- an edge into another component is one of the condensation, so that component is out already
    intro before part after hcut v hv w hvw
    obtain ⟨obefore, otail, rfl, rfl, htail⟩ := List.map_eq_append_iff.1 hcut
    obtain ⟨c, oafter, rfl, rfl, rfl⟩ := List.map_eq_cons_iff.1 htail
    obtain ⟨part, hpart, hw⟩ := List.mem_flatten.1 (mem_components g w)
    obtain ⟨i, hi, rfl⟩ := List.getElem_of_mem hpart
    by_cases hic : (⟨i, hi⟩ : Fin g.components.length) = c
    · exact Or.inr (hic ▸ hw)
    · have hwaits := h.mem_condensation.2 ⟨hic, v, hv, w, hvw, hw⟩
      have hbefore := hgreedy.waits_before rfl _ hwaits
      exact Or.inl (List.mem_flatten.2 ⟨_, List.mem_map_of_mem hbefore, hw⟩)

end CrudGen.Graph

namespace CrudGen

-- ---------------------------------------------------------------------------
-- The order of entities
-- ---------------------------------------------------------------------------

variable {entities : List String} {relationships : List Relationship}

/-- `a` refers to another entity `b` by a many-to-one or one-to-one relationship. -/
def DependsOn (entities : List String) (relationships : List Relationship) (a b : String) : Prop :=
  a ∈ entities ∧ b ∈ entities ∧ a ≠ b ∧
    ∃ r ∈ relationships, (r.kind = .manyToOne ∨ r.kind = .oneToOne) ∧ r.owner = a ∧ r.target = b

/-- Each of two entities depends on the other, directly or through others, or they are one. -/
def SameComponent (entities : List String) (relationships : List Relationship) (a b : String) :
    Prop :=
  Relation.ReflTransGen (DependsOn entities relationships) a b ∧
    Relation.ReflTransGen (DependsOn entities relationships) b a

/-- An order of entities: it has each one once, what an entity depends on comes before it unless
they are in one component, and the members of a component stand next to each other as declared. -/
structure DependenciesFirst (entities : List String) (relationships : List Relationship)
    (order : List String) : Prop where
  perm     : order.Perm entities
  before   : ∀ a b, DependsOn entities relationships a b →
               ¬ SameComponent entities relationships a b → order.idxOf b < order.idxOf a
  together : ∀ a ∈ entities, ∃ earlier members later,
               order = earlier ++ members ++ later ∧ members.Sublist entities ∧
                 ∀ b, b ∈ members ↔ b ∈ entities ∧ SameComponent entities relationships a b

-- ---------------------------------------------------------------------------
-- Dependencies of entities and edges between their places
-- ---------------------------------------------------------------------------

/-- A relationship is a dependency if it is a reference to another entity. -/
theorem Relationship.isDependency_iff {r : Relationship} :
    r.isDependency = true ↔ (r.kind = .manyToOne ∨ r.kind = .oneToOne) ∧ r.owner ≠ r.target := by
  simp [isDependency, isSelfReference]

/-- The place of the first entity of its name. -/
def FirstPlace (entities : List String) (i : Fin entities.length) : Prop :=
  entities.finIdxOf? (elementAt entities i) = some i

instance (i : Fin entities.length) : Decidable (FirstPlace entities i) :=
  inferInstanceAs (Decidable (_ = _))

/-- A name is found at its first place. -/
theorem finIdxOf?_eq_some_iff {a : String} {i : Fin entities.length} :
    entities.finIdxOf? a = some i ↔ FirstPlace entities i ∧ elementAt entities i = a := by
  constructor
  · intro h
    obtain rfl : elementAt entities i = a := (List.finIdxOf?_eq_some_iff.1 h).1
    exact ⟨h, rfl⟩
  · rintro ⟨hi, rfl⟩
    exact hi

/-- Every entity has a first place. -/
theorem exists_firstPlace {a : String} (ha : a ∈ entities) :
    ∃ i, FirstPlace entities i ∧ elementAt entities i = a := by
  have hplace : (entities.finIdxOf? a).isSome := by
    rw [List.isSome_finIdxOf?]
    exact List.contains_iff_mem.2 ha
  obtain ⟨i, hi⟩ := Option.isSome_iff_exists.1 hplace
  exact ⟨i, finIdxOf?_eq_some_iff.1 hi⟩

/-- An entity has one first place. -/
theorem FirstPlace.eq {i j : Fin entities.length} (hi : FirstPlace entities i)
    (hj : FirstPlace entities j) (h : elementAt entities i = elementAt entities j) : i = j := by
  rw [FirstPlace, h, hj] at hi
  exact (Option.some.inj hi).symm

/-- Where names differ, every place is a first one. -/
theorem FirstPlace.of_nodup (hnodup : entities.Nodup) (i : Fin entities.length) :
    FirstPlace entities i := by
  refine List.finIdxOf?_eq_some_iff.2 ⟨rfl, fun j hj hji => ?_⟩
  exact Nat.ne_of_lt hj ((hnodup.getElem_inj_iff).1 hji)

/-- Edges join first places, along dependencies. -/
theorem edge_dependencyGraph {i j : Fin entities.length} :
    (dependencyGraph entities relationships).Edge i j ↔
      FirstPlace entities i ∧ FirstPlace entities j ∧
        DependsOn entities relationships (elementAt entities i) (elementAt entities j) := by
  have hsucc : (dependencyGraph entities relationships).successors i =
      if FirstPlace entities i then
        ascending (relationships.filterMap fun r =>
          if r.isDependency && r.owner == elementAt entities i then entities.finIdxOf? r.target
          else none)
      else [] := by
    rw [dependencyGraph, Graph.successors_ofFn]
    rfl
  rw [Graph.Edge, hsucc]
  -- only the first of equal names has edges
  by_cases hi : FirstPlace entities i
  · rw [if_pos hi, mem_ascending, List.mem_filterMap]
    simp only [Bool.and_eq_true, beq_iff_eq, Option.ite_none_right_eq_some, finIdxOf?_eq_some_iff,
      Relationship.isDependency_iff]
    constructor
    · rintro ⟨r, hr, ⟨⟨hkind, hne⟩, howner⟩, hj, htarget⟩
      exact ⟨hi, hj, List.getElem_mem _, List.getElem_mem _,
        by rw [← howner, htarget]; exact hne, r, hr, hkind, howner, htarget.symm⟩
    · rintro ⟨-, hj, -, -, hne, r, hr, hkind, howner, htarget⟩
      exact ⟨r, hr, ⟨⟨hkind, by rw [howner, htarget]; exact hne⟩, howner⟩, hj, htarget.symm⟩
  · rw [if_neg hi]
    exact iff_of_false List.not_mem_nil fun h => hi h.1

/-- Vertices reach each other as entities depend on each other. -/
theorem reaches_dependencyGraph {i j : Fin entities.length} (hi : FirstPlace entities i)
    (hj : FirstPlace entities j) :
    (dependencyGraph entities relationships).Reaches i j ↔
      Relation.ReflTransGen (DependsOn entities relationships) (elementAt entities i)
        (elementAt entities j) := by
  constructor
  · intro h
    exact Relation.ReflTransGen.lift (elementAt entities)
      (fun _ _ hedge => (edge_dependencyGraph.1 hedge).2.2) _ _ h
  · -- every entity on the way is one of the list, so it has a first place
    suffices hplace : ∀ b,
        Relation.ReflTransGen (DependsOn entities relationships) (elementAt entities i) b →
          ∃ k, FirstPlace entities k ∧ elementAt entities k = b ∧
            (dependencyGraph entities relationships).Reaches i k by
      intro h
      obtain ⟨k, hk, hname, hreach⟩ := hplace _ h
      exact hk.eq hj hname ▸ hreach
    intro b h
    induction h with
    | refl => exact ⟨i, hi, rfl, .refl i⟩
    | tail _ hdep ih =>
      obtain ⟨k, hk, rfl, hreach⟩ := ih
      obtain ⟨m, hm, rfl⟩ := exists_firstPlace hdep.2.1
      exact ⟨m, hm, rfl, hreach.tail (edge_dependencyGraph.2 ⟨hk, hm, hdep⟩)⟩

/-- Vertices are on a circle if their entities are in one component. -/
theorem mutual_dependencyGraph {i j : Fin entities.length} (hi : FirstPlace entities i)
    (hj : FirstPlace entities j) :
    (dependencyGraph entities relationships).Mutual i j ↔
      SameComponent entities relationships (elementAt entities i) (elementAt entities j) :=
  and_congr (reaches_dependencyGraph hi hj) (reaches_dependencyGraph hj hi)

/-- Edges are dependencies if every entity stands once. -/
theorem edge_dependencyGraph_iff (hnodup : entities.Nodup) {i j : Fin entities.length} :
    (dependencyGraph entities relationships).Edge i j ↔
      DependsOn entities relationships (elementAt entities i) (elementAt entities j) :=
  edge_dependencyGraph.trans ⟨fun h => h.2.2, fun h => ⟨.of_nodup hnodup i, .of_nodup hnodup j, h⟩⟩

theorem mutual_dependencyGraph_iff (hnodup : entities.Nodup) {i j : Fin entities.length} :
    (dependencyGraph entities relationships).Mutual i j ↔
      SameComponent entities relationships (elementAt entities i) (elementAt entities j) :=
  mutual_dependencyGraph (.of_nodup hnodup i) (.of_nodup hnodup j)

-- ---------------------------------------------------------------------------
-- Settled components, spelled as names
-- ---------------------------------------------------------------------------

/-- The names of the members of a component. -/
def componentNames (c : List (Fin entities.length)) : List String :=
  c.map (elementAt entities)

/-- The names of components one after another. -/
theorem flatten_map_names (cs : List (List (Fin entities.length))) :
    (cs.map fun vs => vs.map (elementAt entities)).flatten =
      cs.flatten.map (elementAt entities) := by
  rw [List.map_flatten]

/-- Names of earlier components come before those of a later one. -/
theorem idxOf_lt_idxOf {before rest : List String} {a b : String} (hb : b ∈ before)
    (ha : a ∉ before) : (before ++ rest).idxOf b < (before ++ rest).idxOf a := by
  rw [List.idxOf_append_of_mem hb, List.idxOf_append_of_notMem ha]
  have := List.idxOf_lt_length_of_mem hb
  omega

/-- The names of components that hold every place are the entities. -/
theorem perm_names {cs : List (List (Fin entities.length))}
    (h : (dependencyGraph entities relationships).Settled cs) (hall : ∀ v, v ∈ cs.flatten) :
    (cs.flatten.map (elementAt entities)).Perm entities := by
  have hnames := (h.perm_finRange hall).map (elementAt entities)
  rwa [Graph.map_elementAt] at hnames

/-- Settled components in a row put dependencies first. -/
theorem dependenciesFirst_of_settled (hnodup : entities.Nodup)
    {cs : List (List (Fin entities.length))}
    (h : (dependencyGraph entities relationships).Settled cs) (hall : ∀ v, v ∈ cs.flatten) :
    DependenciesFirst entities relationships (cs.flatten.map (elementAt entities)) := by
  refine ⟨perm_names h hall, ?_, ?_⟩
  · -- an edge out of a component leads to an earlier one
    intro a b hdep hdiff
    obtain ⟨i, rfl⟩ := Graph.exists_elementAt hdep.1
    obtain ⟨j, rfl⟩ := Graph.exists_elementAt hdep.2.1
    have hedge := (edge_dependencyGraph_iff hnodup).2 hdep
    obtain ⟨c, hc, hic⟩ := List.mem_flatten.1 (hall i)
    obtain ⟨before, after, rfl⟩ := List.append_of_mem hc
    have hj : j ∈ before.flatten := by
      rcases h.edges before c after rfl _ hic _ hedge with hbefore | hsame
      · exact hbefore
      · have hmutual := (h.mem_iff c hc _ hic _).1 hsame
        exact absurd ((mutual_dependencyGraph_iff hnodup).1 hmutual) hdiff
    have hi : i ∉ before.flatten := by
      intro hbefore
      have := h.nodup
      rw [List.flatten_append, List.flatten_cons, List.nodup_append] at this
      exact this.2.2 _ hbefore _ (List.mem_append_left _ hic) rfl
    rw [List.flatten_append, List.map_append]
    exact idxOf_lt_idxOf (List.mem_map_of_mem (f := elementAt entities) hj)
      fun hmem => hi ((List.mem_map_of_injective (Graph.elementAt_injective hnodup)).1 hmem)
  · -- the component of a vertex is a stretch of the order, in ascending order of places
    intro a ha
    obtain ⟨i, rfl⟩ := Graph.exists_elementAt ha
    obtain ⟨c, hc, hic⟩ := List.mem_flatten.1 (hall i)
    obtain ⟨before, after, rfl⟩ := List.append_of_mem hc
    refine ⟨before.flatten.map (elementAt entities), c.map (elementAt entities),
      after.flatten.map (elementAt entities), by simp,
      List.map_getElem_sublist (h.sorted c hc), fun b => ?_⟩
    rw [List.mem_map]
    constructor
    · rintro ⟨v, hv, rfl⟩
      exact ⟨Graph.elementAt_mem _ _,
        (mutual_dependencyGraph_iff hnodup).1 ((h.mem_iff c hc _ hic v).1 hv)⟩
    · rintro ⟨hb, hsame⟩
      obtain ⟨j, rfl⟩ := Graph.exists_elementAt hb
      exact ⟨j, (h.mem_iff c hc _ hic j).2 ((mutual_dependencyGraph_iff hnodup).2 hsame), rfl⟩

-- ---------------------------------------------------------------------------
-- The generation order
-- ---------------------------------------------------------------------------

/-- The order and its cycles come from the components of the dependencies, each of them whole and
after those that it has an edge to. -/
theorem generationOrder_settled (entities : List String) (relationships : List Relationship) :
    ∃ cs : List (List (Fin entities.length)),
      (dependencyGraph entities relationships).Settled cs ∧ (∀ v, v ∈ cs.flatten) ∧
        generationOrder entities relationships = {
          order := (cs.map componentNames).flatten
          cycles :=
            ((cs.map componentNames).filter fun names => 1 < names.length).map Cycle.mk } := by
  obtain ⟨order, -, hschedule, hperm, hsettled⟩ :=
    (dependencyGraph entities relationships).schedule?_settled
  refine ⟨_, hsettled, fun v => hperm.flatten.mem_iff.2 (Graph.mem_components _ v), ?_⟩
  rw [generationOrder, generationOrder?, hschedule]
  rfl

/-- The generation order has the entities that it is made for, each as often. -/
theorem perm_order (entities : List String) (relationships : List Relationship) :
    (generationOrder entities relationships).order.Perm entities := by
  obtain ⟨cs, hsettled, hall, horder⟩ := generationOrder_settled entities relationships
  rw [horder]
  exact flatten_map_names cs ▸ perm_names hsettled hall

/-- **Dependencies come first.** Every list of distinct entities has a generation order: the queue
of their components never takes one off a count of zero, and the order has each entity once, with
what it depends on before it and the members of each component together as declared. -/
theorem generationOrder_dependenciesFirst {entities : List String} (hnodup : entities.Nodup)
    (relationships : List Relationship) :
    ∃ o, generationOrder? entities relationships = some o ∧
      generationOrder entities relationships = o ∧
      DependenciesFirst entities relationships o.order := by
  obtain ⟨order, -, hschedule, hperm, hsettled⟩ :=
    (dependencyGraph entities relationships).schedule?_settled
  rw [generationOrder, generationOrder?, hschedule]
  refine ⟨_, rfl, rfl, ?_⟩
  dsimp only
  rw [flatten_map_names]
  refine dependenciesFirst_of_settled hnodup hsettled fun v => ?_
  exact hperm.flatten.mem_iff.2 (Graph.mem_components _ v)

/-- A many-to-one relationship without columns. -/
def Relationship.between (owner target : String) : Relationship :=
  { kind := .manyToOne, owner, target, columns := [], targetColumns := [] }

/-- Two entities in a circle, between one that they depend on and one that depends on them. -/
theorem generationOrder_dependenciesFirst_of_circle :
    ["leaf", "b", "root", "a"].Nodup ∧
      ∃ o, generationOrder? ["leaf", "b", "root", "a"]
          [.between "a" "b", .between "b" "a", .between "a" "root", .between "leaf" "b"] =
            some o ∧
        generationOrder ["leaf", "b", "root", "a"]
          [.between "a" "b", .between "b" "a", .between "a" "root", .between "leaf" "b"] = o ∧
        DependenciesFirst ["leaf", "b", "root", "a"]
          [.between "a" "b", .between "b" "a", .between "a" "root", .between "leaf" "b"]
          o.order :=
  ⟨by decide, generationOrder_dependenciesFirst (by decide) _⟩

example : generationOrder ["leaf", "b", "root", "a"]
    [.between "a" "b", .between "b" "a", .between "a" "root", .between "leaf" "b"] =
      { order := ["root", "b", "a", "leaf"], cycles := [⟨["b", "a"]⟩] } := by
  have hcomponents : (dependencyGraph ["leaf", "b", "root", "a"]
      [.between "a" "b", .between "b" "a", .between "a" "root", .between "leaf" "b"]).components =
        [[2], [1, 3], [0]] :=
    Graph.components_of_within (k := 9) (by decide)
  rw [generationOrder, generationOrder?, Graph.schedule?, hcomponents]
  decide +kernel

end CrudGen
