import Mathlib.Data.List.Lex
import CrudGen.Proofs.Schema.Circles

/-!
# Schemas — declaration order among components

A `ComponentOrder` has every component of the entities once, and each after those that it depends
on. There may be several of them. The generation order takes, of the components that could come
next, always the one declared first (`Foremost`), and so it is the least of all when they are
compared component by component.

Main results:

* `Foremost.least` — no component order comes before one that is foremost.
* `ComponentOrder.foremost_of_flatten` — a component order that the entities are declared in is
  foremost.
* `generationOrder_least` — the generation order is the least component order, and changes nothing
  that stands in such an order already.
-/

namespace CrudGen

variable {entities : List String} {relationships : List Relationship} {groups : List (List String)}

/-- Components of the entities, each once and after those that its members depend on. -/
structure ComponentOrder (entities : List String) (relationships : List Relationship)
    (groups : List (List String)) : Prop where
  component : ∀ members ∈ groups, IsComponent entities relationships members
  nodup     : groups.flatten.Nodup
  covers    : ∀ a ∈ entities, a ∈ groups.flatten
  after     : ∀ before members later, groups = before ++ members :: later →
                ∀ a ∈ members, ∀ b, DependsOn entities relationships a b →
                  b ∈ before.flatten ∨ b ∈ members

/-- The place at which the first member of a component is declared. -/
def firstDeclared (entities : List String) : List String → Nat
  | [] => entities.length
  | a :: _ => entities.idxOf a

/-- A component whose first member is declared before that of another one. -/
def DeclaredBefore (entities : List String) (c d : List String) : Prop :=
  firstDeclared entities c < firstDeclared entities d

instance : Std.Asymm (DeclaredBefore entities) :=
  ⟨fun _ _ => Nat.lt_asymm⟩

/-- Of the components that could come next, the one that does is declared first. -/
def Foremost (entities : List String) (relationships : List Relationship)
    (groups : List (List String)) : Prop :=
  ∀ before members later, groups = before ++ members :: later →
    ∀ other, IsComponent entities relationships other → other ∉ before →
      (∀ a ∈ other, ∀ b, DependsOn entities relationships a b →
        b ∈ before.flatten ∨ b ∈ other) →
      ¬ DeclaredBefore entities other members

-- ---------------------------------------------------------------------------
-- Component orders
-- ---------------------------------------------------------------------------

theorem IsComponent.exists_cons {members : List String}
    (h : IsComponent entities relationships members) : ∃ a rest, members = a :: rest :=
  List.exists_cons_of_ne_nil h.ne_nil

/-- Components of distinct entities are known by their first members. -/
theorem IsComponent.eq_of_firstDeclared (hnodup : entities.Nodup) {c d : List String}
    (hc : IsComponent entities relationships c) (hd : IsComponent entities relationships d)
    (h : firstDeclared entities c = firstDeclared entities d) : c = d := by
  obtain ⟨a, _, rfl⟩ := hc.exists_cons
  obtain ⟨b, _, rfl⟩ := hd.exists_cons
  have hab : a = b := (List.idxOf_inj (hc.sublist.subset List.mem_cons_self)).1 h
  exact hc.eq hnodup hd List.mem_cons_self (hab ▸ List.mem_cons_self)

namespace ComponentOrder

/-- Every component is in every component order. -/
theorem mem (h : ComponentOrder entities relationships groups) (hnodup : entities.Nodup)
    {c : List String} (hc : IsComponent entities relationships c) : c ∈ groups := by
  obtain ⟨a, rest, rfl⟩ := hc.exists_cons
  obtain ⟨d, hd, had⟩ := List.mem_flatten.1 (h.covers a (hc.sublist.subset List.mem_cons_self))
  exact hc.eq hnodup (h.component d hd) List.mem_cons_self had ▸ hd

theorem groups_nodup (h : ComponentOrder entities relationships groups) : groups.Nodup := by
  refine (List.nodup_flatten.1 h.nodup).2.imp_of_mem fun {c d} hc _ hcd heq => ?_
  obtain ⟨a, _, rfl⟩ := (h.component c hc).exists_cons
  exact hcd List.mem_cons_self (heq ▸ List.mem_cons_self)

/-- The next component could not have come before. -/
theorem not_mem_before {before later : List (List String)} {c : List String}
    (h : ComponentOrder entities relationships (before ++ c :: later)) : c ∉ before := fun hc =>
  (List.nodup_append.1 h.groups_nodup).2.2 c hc c List.mem_cons_self rfl

theorem perm (h : ComponentOrder entities relationships groups) (hnodup : entities.Nodup) :
    groups.flatten.Perm entities :=
  (List.perm_ext_iff_of_nodup h.nodup hnodup).2 fun a =>
    ⟨fun ha => by
      obtain ⟨c, hc, hac⟩ := List.mem_flatten.1 ha
      exact (h.component c hc).sublist.subset hac, h.covers a⟩

/-- Component orders that agree up to somewhere go on both or end both. -/
theorem tail_eq_nil {before rest : List (List String)}
    (h : ComponentOrder entities relationships before)
    (h' : ComponentOrder entities relationships (before ++ rest)) (hnodup : entities.Nodup) :
    rest = [] := by
  cases rest with
  | nil => rfl
  | cons c later =>
    exact absurd (h.mem hnodup (h'.component c (by simp))) h'.not_mem_before

end ComponentOrder

-- ---------------------------------------------------------------------------
-- The least component order
-- ---------------------------------------------------------------------------

/-- Two component orders with a common beginning, of which one is foremost. -/
theorem Foremost.least_behind (hnodup : entities.Nodup) (before : List (List String))
    {rest rest' : List (List String)}
    (h : ComponentOrder entities relationships (before ++ rest))
    (hleast : Foremost entities relationships (before ++ rest))
    (h' : ComponentOrder entities relationships (before ++ rest')) :
    rest = rest' ∨ List.Lex (DeclaredBefore entities) rest rest' := by
  induction rest generalizing before rest' with
  | nil => exact .inl (ComponentOrder.tail_eq_nil (by simpa using h) h' hnodup).symm
  | cons c later ih =>
    cases rest' with
    | nil => exact .inl (ComponentOrder.tail_eq_nil (by simpa using h') h hnodup)
    | cons d later' =>
      have hc := h.component c (by simp)
      have hd := h'.component d (by simp)
      -- `d` could come next as well, so it is not declared before `c`
      have hnot : ¬ DeclaredBefore entities d c :=
        hleast before c later rfl d hd h'.not_mem_before (h'.after before d later' rfl)
      rcases Nat.lt_or_eq_of_le (Nat.le_of_not_lt hnot) with hlt | heq
      · exact .inr (.rel hlt)
      · obtain rfl := hc.eq_of_firstDeclared hnodup hd heq
        rw [List.append_cons] at h hleast h'
        rcases ih _ h hleast h' with rfl | hlex
        · exact .inl rfl
        · exact .inr (.cons hlex)

/-- **The least order.** Component by component, a foremost order comes before all others. -/
theorem Foremost.least (hnodup : entities.Nodup) (h : ComponentOrder entities relationships groups)
    (hleast : Foremost entities relationships groups) {others : List (List String)}
    (h' : ComponentOrder entities relationships others) :
    groups = others ∨ List.Lex (DeclaredBefore entities) groups others :=
  Foremost.least_behind hnodup [] h hleast h'

/-- There is one foremost component order. -/
theorem Foremost.unique (hnodup : entities.Nodup) {others : List (List String)}
    (h : ComponentOrder entities relationships groups)
    (hleast : Foremost entities relationships groups)
    (h' : ComponentOrder entities relationships others)
    (hleast' : Foremost entities relationships others) : groups = others := by
  rcases hleast.least hnodup h h' with heq | hlex
  · exact heq
  · rcases hleast'.least hnodup h' h with heq | hlex'
    · exact heq.symm
    · exact absurd hlex' (Std.Asymm.asymm _ _ hlex)

-- ---------------------------------------------------------------------------
-- Entities that are declared in order
-- ---------------------------------------------------------------------------

/-- An entity is declared behind those that stand in front of its component. -/
theorem length_le_idxOf {before : List (List String)} {a : String} {rest : List String}
    (ha : a ∉ before.flatten) :
    before.flatten.length ≤ (before.flatten ++ rest).idxOf a := by
  rw [List.idxOf_append_of_notMem ha]
  exact Nat.le_add_right _ _

/-- If the entities are declared in a component order, that one is foremost. -/
theorem ComponentOrder.foremost_of_flatten (h : ComponentOrder entities relationships groups)
    (hnodup : entities.Nodup) (hdeclared : entities = groups.flatten) :
    Foremost entities relationships groups := by
  rintro before members later rfl other hother hnew -
  -- everything in front of `members` stands there, and `other` does not
  obtain ⟨a, rest, rfl⟩ := (h.component members (by simp)).exists_cons
  obtain ⟨b, rest', rfl⟩ := hother.exists_cons
  have hb : b ∉ before.flatten := by
    intro hb
    obtain ⟨c, hc, hbc⟩ := List.mem_flatten.1 hb
    have heq := hother.eq hnodup (h.component c (by simp [hc])) List.mem_cons_self hbc
    exact hnew (heq ▸ hc)
  have ha : a ∉ before.flatten := by
    intro ha
    have := h.nodup
    rw [List.flatten_append, List.nodup_append] at this
    exact this.2.2 a ha a (by simp) rfl
  have hplace : firstDeclared entities (a :: rest) = before.flatten.length := by
    rw [firstDeclared, hdeclared, List.flatten_append, List.idxOf_append_of_notMem ha]
    simp
  refine Nat.not_lt.2 (hplace ▸ ?_)
  rw [firstDeclared, hdeclared, List.flatten_append]
  exact length_le_idxOf hb

/-- The order of the declarations matters to who is a member of a component in no way. -/
theorem dependsOn_perm {entities' : List String} (h : entities.Perm entities') :
    DependsOn entities relationships = DependsOn entities' relationships := by
  funext a b
  simp only [DependsOn, h.mem_iff]

/-- A component order of entities is one of the same entities as it has them. -/
theorem ComponentOrder.of_flatten (h : ComponentOrder entities relationships groups)
    (hnodup : entities.Nodup) : ComponentOrder groups.flatten relationships groups := by
  have hperm := h.perm hnodup
  have hdepends : DependsOn groups.flatten relationships = DependsOn entities relationships :=
    dependsOn_perm hperm
  refine ⟨fun members hmembers => ?_, h.nodup, fun a ha => ha, ?_⟩
  · have hcomponent := h.component members hmembers
    refine ⟨hcomponent.ne_nil, List.sublist_flatten_of_mem hmembers, fun a ha b => ?_⟩
    rw [hcomponent.mem_iff a ha b, hperm.mem_iff, SameComponent, SameComponent, hdepends]
  · rw [hdepends]
    exact h.after

-- ---------------------------------------------------------------------------
-- The order of generation
-- ---------------------------------------------------------------------------

/-- In a greedy order each vertex is the least in rank of those that could come next. -/
theorem Greedy.least_next {k : Nat} {waits : Graph k} {rank : Fin k → Nat}
    {gone order : List (Fin k)} (h : Greedy waits rank gone order) {before after : List (Fin k)}
    {c : Fin k} (hcut : order = before ++ c :: after) {x : Fin k} (hx : x ∉ gone ++ before)
    (hwaits : ∀ b ∈ waits.successors x, b ∈ gone ++ before) : rank c ≤ rank x := by
  induction order generalizing gone before with
  | nil => simp at hcut
  | cons d rest ih =>
    cases before with
    | nil =>
      obtain ⟨rfl, -⟩ : d = c ∧ rest = after := by simpa using hcut
      rw [List.append_nil] at hx hwaits
      exact h.2.2.1 x hx hwaits
    | cons e before =>
      obtain ⟨rfl, hrest⟩ : d = e ∧ rest = before ++ c :: after := by simpa using hcut
      rw [List.append_cons] at hx hwaits
      exact ih h.2.2.2 hrest hx hwaits

/-- The first member of a component is declared at the least of its places. -/
theorem firstDeclared_componentNames (hnodup : entities.Nodup) {c : List (Fin entities.length)}
    (hc : c ≠ []) : firstDeclared entities (componentNames c) = firstPlace c := by
  obtain ⟨v, rest, rfl⟩ := List.exists_cons_of_ne_nil hc
  exact hnodup.idxOf_getElem v.1 v.2

/-- Settled components, spelled as names, are in a component order. -/
theorem componentOrder_of_settled (hnodup : entities.Nodup)
    {cs : List (List (Fin entities.length))}
    (h : (dependencyGraph entities relationships).Settled cs) (hall : ∀ v, v ∈ cs.flatten) :
    ComponentOrder entities relationships (cs.map componentNames) := by
  have hflatten : (cs.map componentNames).flatten = cs.flatten.map (elementAt entities) :=
    flatten_map_names cs
  refine ⟨fun members hmembers => ?_, ?_, fun a ha => ?_, ?_⟩
  · obtain ⟨c, hc, rfl⟩ := List.mem_map.1 hmembers
    exact isComponent_componentNames hnodup h hc
  · rw [hflatten]
    exact h.nodup.map (Graph.elementAt_injective hnodup)
  · obtain ⟨v, rfl⟩ := Graph.exists_elementAt ha
    exact hflatten ▸ List.mem_map_of_mem (hall v)
  -- a dependency is an edge, which leads to an earlier component or stays within one
  · intro before members later hcut a ha b hdepends
    obtain ⟨cs₁, cs₂, rfl, rfl, hcs₂⟩ := List.map_eq_append_iff.1 hcut
    obtain ⟨c, cs₃, rfl, rfl, rfl⟩ := List.map_eq_cons_iff.1 hcs₂
    obtain ⟨v, hv, rfl⟩ := List.mem_map.1 ha
    obtain ⟨w, rfl⟩ := Graph.exists_elementAt hdepends.2.1
    have hedge := (edge_dependencyGraph_iff hnodup).2 hdepends
    rcases h.edges cs₁ c cs₃ rfl v hv w hedge with hbefore | hsame
    · refine .inl ?_
      rw [show (cs₁.map componentNames).flatten = cs₁.flatten.map (elementAt entities) from
        flatten_map_names cs₁]
      exact List.mem_map_of_mem hbefore
    · exact .inr (List.mem_map_of_mem hsame)

/-- What a greedy order of components puts out is foremost. -/
theorem foremost_of_greedy (hnodup : entities.Nodup) {cs : List (List (Fin entities.length))}
    (h : (dependencyGraph entities relationships).Settled cs) (hall : ∀ v, v ∈ cs.flatten)
    {order : List (Fin cs.length)}
    (hgreedy : Greedy ((dependencyGraph entities relationships).condensation cs)
      (fun c => firstPlace (elementAt cs c)) [] order) :
    Foremost entities relationships (order.map fun c => componentNames (elementAt cs c)) := by
  intro before members later hcut other hother hnew hdepends
  obtain ⟨order₁, order₂, rfl, rfl, horder₂⟩ := List.map_eq_append_iff.1 hcut
  obtain ⟨c, order₃, rfl, rfl, rfl⟩ := List.map_eq_cons_iff.1 horder₂
  have hspelled : ∀ c : Fin cs.length,
      IsComponent entities relationships (componentNames (elementAt cs c)) := fun c =>
    isComponent_componentNames hnodup h (Graph.elementAt_mem cs c)
  have hplaces : ∀ v w : Fin entities.length, elementAt entities v = elementAt entities w → v = w :=
    fun _ _ heq => Graph.elementAt_injective hnodup heq
  -- the other component is one of the graph
  obtain ⟨x, rfl⟩ : ∃ x : Fin cs.length, componentNames (elementAt cs x) = other := by
    obtain ⟨a, rest, rfl⟩ := hother.exists_cons
    obtain ⟨v, rfl⟩ := Graph.exists_elementAt (hother.sublist.subset List.mem_cons_self)
    obtain ⟨d, hd, hvd⟩ := List.mem_flatten.1 (hall v)
    obtain ⟨x, rfl⟩ := Graph.exists_elementAt hd
    exact ⟨x, (hspelled x).eq hnodup hother (List.mem_map_of_mem hvd) List.mem_cons_self⟩
  -- and waits for nothing but components that are out
  have hwaits : ∀ b ∈ ((dependencyGraph entities relationships).condensation cs).successors x,
      b ∈ [] ++ order₁ := by
    intro b hb
    obtain ⟨hbx, v, hv, w, hedge, hw⟩ := h.mem_condensation.1 hb
    have hdep := (edge_dependencyGraph_iff hnodup).1 hedge
    rcases hdepends _ (List.mem_map_of_mem hv) _ hdep with hbefore | hsame
    · obtain ⟨_, hmem, hwmem⟩ := List.mem_flatten.1 hbefore
      obtain ⟨y, hy, rfl⟩ := List.mem_map.1 hmem
      obtain ⟨w', hw', heq⟩ := List.mem_map.1 hwmem
      exact h.eq_of_mem hw (hplaces _ _ heq ▸ hw') ▸ hy
    · obtain ⟨w', hw', heq⟩ := List.mem_map.1 hsame
      exact absurd (h.eq_of_mem hw (hplaces _ _ heq ▸ hw')) hbx
  have hx : x ∉ [] ++ order₁ := fun hmem => hnew (List.mem_map_of_mem hmem)
  have hrank := hgreedy.least_next rfl hx hwaits
  rw [DeclaredBefore, firstDeclared_componentNames hnodup (h.ne_nil _ (Graph.elementAt_mem cs x)),
    firstDeclared_componentNames hnodup (h.ne_nil _ (Graph.elementAt_mem cs c))]
  exact Nat.not_lt.2 hrank

/-- An order of generation that is made of the components of a list. -/
def orderOf (groups : List (List String)) : GenerationOrder :=
  { order := groups.flatten
    cycles := (groups.filter fun names => 1 < names.length).map Cycle.mk }

theorem generationOrder_foremost (hnodup : entities.Nodup) (relationships : List Relationship) :
    ∃ groups, generationOrder entities relationships = orderOf groups ∧
      ComponentOrder entities relationships groups ∧
        Foremost entities relationships groups := by
  obtain ⟨order, hgreedy, hschedule, hperm, hsettled⟩ :=
    (dependencyGraph entities relationships).schedule?_settled
  have hall : ∀ v, v ∈ (dependencyGraph entities relationships).components.flatten :=
    Graph.mem_components _
  refine ⟨_, ?_, componentOrder_of_settled hnodup hsettled fun v =>
    hperm.flatten.mem_iff.2 (hall v), ?_⟩
  · rw [generationOrder, generationOrder?, hschedule]
    rfl
  · have hforemost := foremost_of_greedy hnodup (Graph.settled_components _) hall hgreedy
    rwa [List.map_map]

/-- Entities that are declared in a component order are generated as they are declared. -/
theorem generationOrder_of_flatten (hnodup : entities.Nodup)
    (h : ComponentOrder entities relationships groups) (hdeclared : entities = groups.flatten) :
    generationOrder entities relationships = orderOf groups := by
  obtain ⟨found, hfound, horder, hforemost⟩ := generationOrder_foremost hnodup relationships
  rw [hfound, hforemost.unique hnodup horder h (h.foremost_of_flatten hnodup hdeclared)]

/-- **Ties.** The generation order of distinct entities is made of their components in a component
order, and of all component orders it is the least, component by component, by where the first
members are declared. Entities that are declared in a component order stay as they are declared, so
that ordering what is in order already changes neither the order nor its cycles. -/
theorem generationOrder_least {entities : List String} (hnodup : entities.Nodup)
    (relationships : List Relationship) :
    (∃ groups, generationOrder entities relationships = orderOf groups ∧
      ComponentOrder entities relationships groups ∧
      ∀ others, ComponentOrder entities relationships others →
        groups = others ∨ List.Lex (DeclaredBefore entities) groups others) ∧
    (∀ groups, ComponentOrder entities relationships groups → entities = groups.flatten →
      generationOrder entities relationships = orderOf groups ∧
        (generationOrder entities relationships).order = entities) ∧
    generationOrder (generationOrder entities relationships).order relationships =
      generationOrder entities relationships := by
  obtain ⟨groups, hgroups, horder, hforemost⟩ := generationOrder_foremost hnodup relationships
  refine ⟨⟨groups, hgroups, horder, fun others => hforemost.least hnodup horder⟩, ?_, ?_⟩
  · intro declared hdeclared hentries
    have hsame := generationOrder_of_flatten hnodup hdeclared hentries
    exact ⟨hsame, hsame ▸ hentries.symm⟩
  · rw [hgroups]
    exact generationOrder_of_flatten horder.nodup (horder.of_flatten hnodup) rfl

/-- A circle of `b` and `a` that needs `root`, an entity that needs the circle, and one that needs
nothing. -/
private def tied : List Relationship :=
  [.between "late" "b", .between "b" "a", .between "a" "b", .between "a" "root"]

/-- Of the two entities that may come first the one declared first does, and the order that comes
out is made of components and stays as it is. -/
theorem generationOrder_least_of_tied :
    ["late", "free", "b", "root", "a"].Nodup ∧
      (∃ groups, orderOf groups =
          { order := ["free", "root", "b", "a", "late"], cycles := [⟨["b", "a"]⟩] } ∧
        ComponentOrder ["late", "free", "b", "root", "a"] tied groups ∧
        ∀ others, ComponentOrder ["late", "free", "b", "root", "a"] tied others →
          groups = others ∨
            List.Lex (DeclaredBefore ["late", "free", "b", "root", "a"]) groups others) ∧
      ∃ groups, ComponentOrder ["free", "root", "b", "a", "late"] tied groups ∧
        ["free", "root", "b", "a", "late"] = groups.flatten ∧
        generationOrder ["free", "root", "b", "a", "late"] tied = orderOf groups := by
  have hnodup : ["late", "free", "b", "root", "a"].Nodup := by decide
  have hnodup' : ["free", "root", "b", "a", "late"].Nodup := by decide
  have horder : generationOrder ["late", "free", "b", "root", "a"] tied =
      { order := ["free", "root", "b", "a", "late"], cycles := [⟨["b", "a"]⟩] } := by
    -- components are computed in a bounded number of steps
    have hcomponents : (dependencyGraph ["late", "free", "b", "root", "a"] tied).components =
        [[3], [2, 4], [0], [1]] :=
      Graph.components_of_within (k := 9) (by decide +kernel)
    rw [generationOrder, generationOrder?, Graph.schedule?, hcomponents]
    decide +kernel
  have horder' : generationOrder ["free", "root", "b", "a", "late"] tied =
      { order := ["free", "root", "b", "a", "late"], cycles := [⟨["b", "a"]⟩] } := by
    have hcomponents : (dependencyGraph ["free", "root", "b", "a", "late"] tied).components =
        [[0], [1], [2, 3], [4]] :=
      Graph.components_of_within (k := 9) (by decide +kernel)
    rw [generationOrder, generationOrder?, Graph.schedule?, hcomponents]
    decide +kernel
  -- both orders are those of some groups, the second of which are found again
  obtain ⟨groups, hgroups, hcomponents, hleast⟩ := (generationOrder_least hnodup tied).1
  obtain ⟨groups', hgroups', hcomponents', -⟩ := (generationOrder_least hnodup' tied).1
  have hflatten : ["free", "root", "b", "a", "late"] = groups'.flatten :=
    congrArg GenerationOrder.order (horder'.symm.trans hgroups')
  exact ⟨hnodup, ⟨groups, hgroups ▸ horder, hcomponents, hleast⟩, groups', hcomponents', hflatten,
    ((generationOrder_least hnodup' tied).2.1 groups' hcomponents' hflatten).1⟩

end CrudGen
