import Mathlib.Data.Fin.Tuple.Take
import Mathlib.Data.List.Flatten
import CrudGen.Proofs.Schema.Kinds
import CrudGen.Proofs.Schema.Order

/-!
# Schemas — circles of references

Entities that depend on each other in a circle make up a component with several members. The
generation order reports each such component once (`IsComponent`), and a table is deferred exactly
when it lies on a circle through another one (`OnCircle`).

Main results:

* `cycles_exact` — what is reported, in which order, and which tables are deferred.
-/

namespace CrudGen

variable {entities : List String} {relationships : List Relationship}

/-- The members of one component, as they are declared. -/
structure IsComponent (entities : List String) (relationships : List Relationship)
    (members : List String) : Prop where
  ne_nil  : members ≠ []
  sublist : members.Sublist entities
  mem_iff : ∀ a ∈ members, ∀ b, b ∈ members ↔
              b ∈ entities ∧ SameComponent entities relationships a b

/-- Dependencies lead from an entity to another one and back. -/
def OnCircle (entities : List String) (relationships : List Relationship) (a : String) : Prop :=
  ∃ b, b ≠ a ∧ SameComponent entities relationships a b

-- ---------------------------------------------------------------------------
-- Components, spelled as names
-- ---------------------------------------------------------------------------

/-- A component of distinct entities, spelled as names. -/
theorem isComponent_componentNames (hnodup : entities.Nodup)
    {cs : List (List (Fin entities.length))}
    (h : (dependencyGraph entities relationships).Settled cs) {c : List (Fin entities.length)}
    (hc : c ∈ cs) : IsComponent entities relationships (componentNames c) := by
  refine ⟨fun hnil => h.ne_nil c hc (List.map_eq_nil_iff.1 hnil),
    List.map_getElem_sublist (h.sorted c hc), fun a ha b => ?_⟩
  obtain ⟨i, hi, rfl⟩ := List.mem_map.1 ha
  rw [componentNames, List.mem_map]
  constructor
  · rintro ⟨j, hj, rfl⟩
    exact ⟨Graph.elementAt_mem _ _,
      (mutual_dependencyGraph_iff hnodup).1 ((h.mem_iff c hc i hi j).1 hj)⟩
  · rintro ⟨hb, hsame⟩
    obtain ⟨j, rfl⟩ := Graph.exists_elementAt hb
    exact ⟨j, (h.mem_iff c hc i hi j).2 ((mutual_dependencyGraph_iff hnodup).2 hsame), rfl⟩

/-- Of a list without repetitions, two sublists with the same members are one. -/
theorem eq_of_sublist_of_mem_iff {α : Type} {xs ys zs : List α} (hnodup : zs.Nodup)
    (hxs : xs.Sublist zs) (hys : ys.Sublist zs) (hmem : ∀ a, a ∈ xs ↔ a ∈ ys) : xs = ys := by
  induction hxs generalizing ys with
  | slnil => exact (List.sublist_nil.1 hys).symm
  | @cons xs zs z hxs ih =>
    rw [List.nodup_cons] at hnodup
    rcases List.sublist_cons_iff.1 hys with hys | ⟨rest, rfl, -⟩
    · exact ih hnodup.2 hys hmem
    · -- `z` would be a member of `xs`, which is a sublist of what follows it
      exact absurd (hxs.subset ((hmem z).2 List.mem_cons_self)) hnodup.1
  | @cons_cons xs zs z hxs ih =>
    rw [List.nodup_cons] at hnodup
    rcases List.sublist_cons_iff.1 hys with hys | ⟨rest, rfl, hrest⟩
    · exact absurd (hys.subset ((hmem z).1 List.mem_cons_self)) hnodup.1
    · have hrestmem : ∀ a, a ∈ xs ↔ a ∈ rest := by
        intro a
        have ha := hmem a
        rw [List.mem_cons, List.mem_cons] at ha
        constructor
        · intro hax
          have hne : a ≠ z := fun heq => hnodup.1 (heq ▸ hxs.subset hax)
          exact (ha.1 (.inr hax)).resolve_left hne
        · intro har
          have hne : a ≠ z := fun heq => hnodup.1 (heq ▸ hrest.subset har)
          exact (ha.2 (.inr har)).resolve_left hne
      rw [ih hnodup.2 hrest hrestmem]

/-- Components are known by one of their members. -/
theorem IsComponent.eq (hnodup : entities.Nodup) {xs ys : List String}
    (hxs : IsComponent entities relationships xs) (hys : IsComponent entities relationships ys)
    {a : String} (hax : a ∈ xs) (hay : a ∈ ys) : xs = ys :=
  eq_of_sublist_of_mem_iff hnodup hxs.sublist hys.sublist fun b =>
    (hxs.mem_iff a hax b).trans (hys.mem_iff a hay b).symm

-- ---------------------------------------------------------------------------
-- Deferred tables
-- ---------------------------------------------------------------------------

/-- An entity lies on a circle exactly when its first place is not alone in its component. -/
theorem onCircle_iff {a : String} :
    OnCircle entities relationships a ↔
      ∃ i j, i ≠ j ∧ elementAt entities i = a ∧
        (dependencyGraph entities relationships).Mutual i j := by
  constructor
  · rintro ⟨b, hne, hab, hba⟩
    -- as the two differ, there is a first step on the way there and on the way back
    obtain ⟨_, hfirst, -⟩ := (Relation.ReflTransGen.cases_head hab).resolve_left hne.symm
    obtain ⟨_, hback, -⟩ := (Relation.ReflTransGen.cases_head hba).resolve_left hne
    obtain ⟨i, hi, rfl⟩ := exists_firstPlace hfirst.1
    obtain ⟨j, hj, rfl⟩ := exists_firstPlace hback.1
    exact ⟨i, j, fun hij => hne (hij ▸ rfl), rfl, (mutual_dependencyGraph hi hj).2 ⟨hab, hba⟩⟩
  · rintro ⟨i, j, hne, rfl, hij, hji⟩
    -- edges join first places, so both ends are first places and have different names
    obtain ⟨_, hfirst, -⟩ := (Relation.ReflTransGen.cases_head hij).resolve_left hne
    obtain ⟨_, hback, -⟩ := (Relation.ReflTransGen.cases_head hji).resolve_left hne.symm
    have hi := (edge_dependencyGraph.1 hfirst).1
    have hj := (edge_dependencyGraph.1 hback).1
    exact ⟨elementAt entities j, fun hname => hne (hi.eq hj hname.symm),
      (mutual_dependencyGraph hi hj).1 ⟨hij, hji⟩⟩

theorem mem_cycles_iff {a : String} :
    (∃ c ∈ (generationOrder entities relationships).cycles, a ∈ c.tables) ↔
      OnCircle entities relationships a := by
  obtain ⟨cs, hsettled, hall, horder⟩ := generationOrder_settled entities relationships
  rw [horder, onCircle_iff]
  simp only [List.mem_map, List.mem_filter, decide_eq_true_eq]
  constructor
  · rintro ⟨_, ⟨_, ⟨⟨c, hc, rfl⟩, hlong⟩, rfl⟩, ha⟩
    obtain ⟨i, hi, rfl⟩ := List.mem_map.1 ha
    rw [componentNames, List.length_map] at hlong
    -- of two members of the component, one is not `i`
    obtain ⟨j, hj, hne⟩ : ∃ j ∈ c, j ≠ i := by
      match c, hsettled.sorted c hc, hlong with
      | v :: w :: rest, hsorted, _ =>
        have hvw : v < w := (List.pairwise_cons.1 hsorted).1 w List.mem_cons_self
        by_cases hvi : v = i
        · exact ⟨w, by simp, fun hwi => Fin.ne_of_lt hvw (hvi.trans hwi.symm)⟩
        · exact ⟨v, by simp, hvi⟩
    exact ⟨i, j, hne.symm, rfl, (hsettled.mem_iff c hc i hi j).1 hj⟩
  · rintro ⟨i, j, hne, rfl, hmutual⟩
    obtain ⟨c, hc, hi⟩ := List.mem_flatten.1 (hall i)
    have hj := (hsettled.mem_iff c hc i hi j).2 hmutual
    refine ⟨_, ⟨componentNames c, ⟨⟨c, hc, rfl⟩, ?_⟩, rfl⟩, List.mem_map_of_mem hi⟩
    rw [componentNames, List.length_map]
    match c, hi, hj with
    | [v], hi, hj =>
      exact absurd ((List.mem_singleton.1 hi).trans (List.mem_singleton.1 hj).symm) hne
    | v :: w :: rest, _, _ => simp

-- ---------------------------------------------------------------------------
-- Cycles
-- ---------------------------------------------------------------------------

/-- **Cycles.** Of distinct entities, exactly the components with several members are reported, each
once, with its members as declared, and in the order in which they stand in the generation order. In
an inferred schema a table is deferred exactly if it lies on a circle through another one. -/
theorem cycles_exact :
    (∀ entities : List String, entities.Nodup → ∀ relationships : List Relationship,
      let o := generationOrder entities relationships
      (∀ members, Cycle.mk members ∈ o.cycles ↔
        IsComponent entities relationships members ∧ 2 ≤ members.length) ∧
      o.cycles.Nodup ∧ (o.cycles.flatMap (·.tables)).Sublist o.order) ∧
    ∀ (c : Catalog) (name : String),
      let s := Schema.infer c
      s.isDeferred name = true ↔ OnCircle (s.entities.map (·.name)) s.relationships name := by
  refine ⟨fun entities hnodup relationships => ?_, fun c name => ?_⟩
  · obtain ⟨cs, hsettled, hall, horder⟩ := generationOrder_settled entities relationships
    dsimp only
    rw [horder]
    refine ⟨fun members => ?_, ?_, ?_⟩
    · simp only [List.mem_map, List.mem_filter, decide_eq_true_eq, Cycle.mk.injEq]
      constructor
      · rintro ⟨_, ⟨⟨c, hc, rfl⟩, hlong⟩, rfl⟩
        exact ⟨isComponent_componentNames hnodup hsettled hc, hlong⟩
      · rintro ⟨hmembers, hlong⟩
        -- the component of a member, spelled as names, is this one
        obtain ⟨a, ha⟩ := List.exists_mem_of_ne_nil _ hmembers.ne_nil
        obtain ⟨i, rfl⟩ := Graph.exists_elementAt (hmembers.sublist.subset ha)
        obtain ⟨c, hc, hic⟩ := List.mem_flatten.1 (hall i)
        have heq : componentNames c = members :=
          (isComponent_componentNames hnodup hsettled hc).eq hnodup hmembers
            (List.mem_map_of_mem (f := elementAt entities) hic) ha
        exact ⟨members, ⟨⟨c, hc, heq⟩, hlong⟩, rfl⟩
    · have hcs : cs.Nodup := by
        have hdisj := (List.nodup_flatten.1 hsettled.nodup).2
        refine hdisj.imp_of_mem fun {c d} hc _ hcd heq => ?_
        obtain ⟨v, hv⟩ := List.exists_mem_of_ne_nil _ (hsettled.ne_nil c hc)
        exact hcd hv (heq ▸ hv)
      have hnames : Function.Injective
          (componentNames : List (Fin entities.length) → List String) :=
        (Graph.elementAt_injective hnodup).list_map
      have hmk : Function.Injective Cycle.mk := fun _ _ h => Cycle.mk.inj h
      exact ((hcs.map hnames).filter _).map hmk
    · rw [List.flatMap_def, List.map_map]
      change (List.map id _).flatten.Sublist _
      rw [List.map_id]
      exact List.filter_sublist.flatten
  · dsimp only
    rw [← mem_cycles_iff, entities_infer, Schema.isDeferred, List.any_eq_true]
    simp only [List.contains_iff_mem]
    rfl

/-- Two circles that touch in `b`, and a circle of `d` and `e` with a reference to the first two. -/
private def touching : List Relationship :=
  [.between "a" "b", .between "b" "a", .between "b" "c", .between "c" "b", .between "d" "e",
    .between "e" "d", .between "e" "e", .between "d" "a"]

/-- Circles that touch make one component, and the other circle is a component of its own. -/
theorem cycles_exact_of_touching_circles :
    ["e", "a", "b", "c", "d"].Nodup ∧
      IsComponent ["e", "a", "b", "c", "d"] touching ["a", "b", "c"] ∧
      IsComponent ["e", "a", "b", "c", "d"] touching ["e", "d"] := by
  have hnodup : ["e", "a", "b", "c", "d"].Nodup := by decide
  have hcycles : (generationOrder ["e", "a", "b", "c", "d"] touching).cycles =
      [⟨["a", "b", "c"]⟩, ⟨["e", "d"]⟩] := by
    have hcomponents : (dependencyGraph ["e", "a", "b", "c", "d"] touching).components =
        [[1, 2, 3], [0, 4]] :=
      Graph.components_of_within (k := 15) (by decide +kernel)
    rw [generationOrder, generationOrder?, Graph.schedule?, hcomponents]
    decide +kernel
  obtain ⟨hreported, -⟩ := cycles_exact.1 _ hnodup touching
  rw [hcycles] at hreported
  exact ⟨hnodup, ((hreported _).1 (by decide)).1, ((hreported _).1 (by decide)).1⟩

end CrudGen
