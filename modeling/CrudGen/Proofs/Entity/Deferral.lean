import CrudGen.Proofs.Entity.Joins

/-!
# Entities — relations that are deferred

A relation that is not deferred leads to an entity that is generated earlier, so that its definition
is at hand. A relation with a foreign key leads to an earlier entity anyway, as the generation order
puts dependencies first, unless foreign keys lead from that entity back (`Schema.OnKeyCircle`).

Main results:

* `dependsOn_infer_iff` — dependencies are the foreign keys between different entities.
* `comesLate_iff` — what defers a relation, by places in the generation order.
* `deferral_exact` — which relations are deferred.
-/

namespace CrudGen

open Sql (Dialect)

-- ---------------------------------------------------------------------------
-- Foreign keys between entities
-- ---------------------------------------------------------------------------

namespace Schema

/-- A foreign key of an entity refers to another entity. -/
def RefersTo (s : Schema) (a b : String) : Prop :=
  a ≠ b ∧ s.isJunction b = false ∧
    ∃ t ∈ s.tables, t.name = a ∧ t.kind = .entity ∧ ∃ fk ∈ t.foreignKeys, fk.targetTable = b

/-- Foreign keys lead from an entity to another one and back. -/
def OnKeyCircle (s : Schema) (a : String) : Prop :=
  ∃ b, b ≠ a ∧ Relation.ReflTransGen s.RefersTo a b ∧ Relation.ReflTransGen s.RefersTo b a

end Schema

variable {c : Catalog} {a b : String}

/-- The names of entities are those of tables that are entities. -/
theorem mem_entityNames_iff :
    a ∈ c.entityNames ↔ ∃ t ∈ c.tables, t.kind = .entity ∧ t.name = a := by
  rw [← (perm_order_infer c).mem_iff, mem_order_infer_iff]

/-- Dependencies are the foreign keys between different entities. -/
theorem dependsOn_infer_iff (h : c.Referential) :
    DependsOn c.entityNames (Schema.infer c).relationships a b ↔ (Schema.infer c).RefersTo a b := by
  constructor
  · rintro ⟨-, -, hne, r, hr, hkind, rfl, rfl⟩
    have hvia : r.via = none := via_of_kind h hr (by rcases hkind with heq | heq <;> simp [heq])
    obtain ⟨t, ht, hentity, fk, hfk, htarget, rfl⟩ :=
      (mem_relationships_of_key_iff h).1 ⟨hr, hvia⟩
    exact ⟨hne, htarget, t, ht, rfl, hentity, fk, hfk, rfl⟩
  · rintro ⟨hne, htarget, t, ht, rfl, hentity, fk, hfk, rfl⟩
    obtain ⟨target, hmem, hname, -⟩ := (h.resolved t ht fk hfk).target
    have htargetKind : target.kind = .entity := by
      rw [← hname, isJunction_infer h.distinct.nodup hmem] at htarget
      rw [Table.kind, htarget]
      rfl
    have hrelated := (mem_relationships_of_key_iff h).2 ⟨t, ht, hentity, fk, hfk, htarget, rfl⟩
    exact ⟨mem_entityNames_iff.2 ⟨t, ht, hentity, rfl⟩,
      mem_entityNames_iff.2 ⟨target, hmem, htargetKind, hname⟩, hne, t.keyRelationship fk,
      hrelated.1, kind_keyRelationship t fk, rfl, rfl⟩

/-- An entity is deferred if it is on a circle. -/
theorem isDeferred_iff_onCircle : (Schema.infer c).isDeferred a = true ↔
    OnCircle c.entityNames (Schema.infer c).relationships a := by
  rw [← mem_cycles_iff, Schema.isDeferred, List.any_eq_true]
  simp only [List.contains_iff_mem]
  rfl

/-- A table is deferred exactly if it lies on a circle of foreign keys. -/
theorem isDeferred_infer_iff (h : c.Referential) :
    (Schema.infer c).isDeferred a = true ↔ (Schema.infer c).OnKeyCircle a := by
  have hsame : DependsOn c.entityNames (Schema.infer c).relationships =
      (Schema.infer c).RefersTo := by
    funext a b
    exact propext (dependsOn_infer_iff h)
  rw [isDeferred_iff_onCircle, OnCircle, Schema.OnKeyCircle]
  simp only [SameComponent, hsame]

-- ---------------------------------------------------------------------------
-- Places in the generation order
-- ---------------------------------------------------------------------------

/-- The place of a name is the first that has it. -/
theorem idxOf?_of_mem {names : List String} (h : a ∈ names) :
    names.idxOf? a = some (names.idxOf a) := by
  cases hplace : names.idxOf? a with
  | none => exact absurd h (List.idxOf?_eq_none_iff.1 hplace)
  | some i => rw [List.idxOf_eq_getD_idxOf?, hplace, Option.getD_some]

/-- Of two entities, the other one comes late if both are one, if both are deferred, or if it stands
later in the order. -/
theorem comesLate_iff {s : Schema} (ha : a ∈ s.order) (hb : b ∈ s.order) :
    s.comesLate a b = true ↔ a = b ∨ (s.isDeferred a = true ∧ s.isDeferred b = true) ∨
      s.order.idxOf a < s.order.idxOf b := by
  rw [Schema.comesLate, idxOf?_of_mem ha, idxOf?_of_mem hb]
  simp only [Bool.or_eq_true, beq_iff_eq, Bool.and_eq_true, decide_eq_true_eq, or_assoc]

/-- Of two different entities, one that does not come late stands earlier. -/
theorem idxOf_lt_of_not_comesLate {s : Schema} (ha : a ∈ s.order) (hb : b ∈ s.order)
    (h : s.comesLate a b = false) : s.order.idxOf b < s.order.idxOf a := by
  rw [← Bool.not_eq_true, comesLate_iff ha hb] at h
  push Not at h
  obtain ⟨hne, -, hplace⟩ := h
  exact lt_of_le_of_ne hplace fun heq => hne ((List.idxOf_inj hb).1 heq).symm

/-- What an entity refers to stands earlier, unless both are deferred. -/
theorem idxOf_lt_of_refersTo (h : c.Referential) (hrefers : (Schema.infer c).RefersTo a b)
    (hdeferred : ¬ ((Schema.infer c).isDeferred a = true ∧ (Schema.infer c).isDeferred b = true)) :
    (Schema.infer c).order.idxOf b < (Schema.infer c).order.idxOf a := by
  have hnodup : c.entityNames.Nodup := h.distinct.nodup.sublist (List.filter_sublist.map _)
  have hdepends := (dependsOn_infer_iff h).2 hrefers
  obtain ⟨cs, hsettled, hall, horder⟩ :=
    generationOrder_settled c.entityNames (Schema.infer c).relationships
  have hfirst := dependenciesFirst_of_settled hnodup hsettled hall
  rw [← flatten_map_names] at hfirst
  have hplaces : (Schema.infer c).order = (cs.map componentNames).flatten :=
    congrArg GenerationOrder.order horder
  rw [hplaces]
  refine hfirst.before a b hdepends fun hsame => hdeferred ?_
  -- in one component, each of them lies on a circle through the other one
  rw [isDeferred_iff_onCircle, isDeferred_iff_onCircle]
  exact ⟨⟨b, hrefers.1.symm, hsame⟩, ⟨a, hrefers.1, hsame.symm⟩⟩

/-- An entity that another one refers to comes late exactly if both are one or both are deferred. -/
theorem comesLate_iff_of_refersTo (h : c.Referential) (ha : a ∈ (Schema.infer c).order)
    (hb : b ∈ (Schema.infer c).order) (hrefers : a ≠ b → (Schema.infer c).RefersTo a b) :
    (Schema.infer c).comesLate a b = true ↔
      a = b ∨ ((Schema.infer c).isDeferred a = true ∧ (Schema.infer c).isDeferred b = true) := by
  rw [comesLate_iff ha hb, ← or_assoc, or_iff_left_iff_imp]
  intro hlater
  by_contra hneither
  rw [not_or] at hneither
  have hearlier := idxOf_lt_of_refersTo h (hrefers hneither.1) hneither.2
  omega

-- ---------------------------------------------------------------------------
-- Relations
-- ---------------------------------------------------------------------------

namespace RelationView

variable (v : RelationView) (s : Schema) (p : Profile) (names : NameTable) (name : String)

/-- A relation is of the kind of its view. -/
@[simp] theorem relation_kind : (v.relation s p names name).kind = v.kind :=
  rfl

/-- A relation is deferred if its target comes later. -/
@[simp] theorem relation_deferred :
    (v.relation s p names name).deferred = s.comesLate v.source v.other :=
  rfl

end RelationView

variable {p : Profile} {e : Entity} {v : RelationView} {r : Relation}

namespace Entity.Shows

variable {s : Schema}

/-- A view is seen from the table of its entity. -/
theorem source_eq (h : e.Shows s v r) : v.source = e.table.name := by
  obtain ⟨-, hv, hnear, -⟩ := h.relationship
  rw [← hnear, hv, Relationship.seen_source, Relationship.seen_inverse,
    Relationship.seen_relationship]

/-- A relation leads to the other end of its view. -/
theorem targetTable_eq (he : e ∈ s.entityModels p) (h : e.Shows s v r) :
    r.targetTable = v.other := by
  rw [h.eq he, RelationView.relation_targetTable]

/-- Whether a relation is deferred is a matter of its two tables. -/
theorem deferred_eq (he : e ∈ s.entityModels p) (h : e.Shows s v r) :
    r.deferred = s.comesLate e.table.name r.targetTable := by
  rw [h.targetTable_eq he, ← h.source_eq, h.eq he, RelationView.relation_deferred]

end Entity.Shows

/-- The table of an entity has a place in the order. -/
theorem table_mem_order (h : c.Referential) (he : e ∈ (Schema.infer c).entityModels p) :
    e.table.name ∈ (Schema.infer c).order := by
  obtain ⟨ht, hkind⟩ := table_of_mem h he
  exact mem_order_infer hkind ht

/-- So has the table that a relation leads to. -/
theorem target_mem_order (h : c.Referential) (hshown : e.Shows (Schema.infer c) v r) :
    v.other ∈ (Schema.infer c).order := by
  obtain ⟨hrel, hv, -, hother⟩ := hshown.relationship
  obtain ⟨t, ht, hname⟩ := exists_end h hrel (!v.inverse)
  rw [hv, Relationship.seen_other, ← hname] at hother ⊢
  have hentity := (isEntity_or_isJunction h.distinct.nodup ht).resolve_right (by simp [hother])
  exact hentity.2

/-- A relation with a foreign key leads to what its table refers to. -/
theorem refersTo_of_holdsKey (h : c.Referential) (he : e ∈ (Schema.infer c).entityModels p)
    (hshown : e.Shows (Schema.infer c) v r) (hkey : r.holdsKey = true)
    (hne : e.table.name ≠ r.targetTable) :
    (Schema.infer c).RefersTo e.table.name r.targetTable := by
  rw [← hshown.source_eq, hshown.targetTable_eq he] at hne ⊢
  rw [hshown.eq he, Relation.holdsKey] at hkey
  simp only [RelationView.relation_inverse, RelationView.relation_kind, Bool.and_eq_true,
    Bool.not_eq_true', Bool.or_eq_true, beq_iff_eq] at hkey
  obtain ⟨hforward, hkind⟩ := hkey
  obtain ⟨hrel, hv, -, -⟩ := hshown.relationship
  -- seen from the owner, the relationship is the one of a foreign key
  rw [hforward] at hv
  have hends : v.kind = v.relationship.kind ∧ v.source = v.relationship.owner ∧
      v.other = v.relationship.target := by
    rw [hv]
    exact ⟨rfl, rfl, rfl⟩
  have hvia : v.relationship.via = none := by
    refine via_of_kind h hrel ?_
    rw [← hends.1]
    rcases hkind with heq | heq <;> simp [heq]
  obtain ⟨t, ht, hentity, fk, hfk, htarget, heq⟩ :=
    (mem_relationships_of_key_iff h).1 ⟨hrel, hvia⟩
  rw [hends.2.1, hends.2.2, heq] at hne ⊢
  exact ⟨hne, htarget, t, ht, rfl, hentity, fk, hfk, rfl⟩

/-- **Deferral.** In the schema of a script, under any profile, an entity that a relation leads to
stands strictly earlier than its own entity unless the relation is deferred. A relation with a
foreign key is deferred exactly if it leads to its own entity or both entities lie on circles of
foreign keys. -/
theorem deferral_exact (script : String) (dialect : Dialect) (p : Profile) :
    let s := Schema.infer (Extraction.ofScript script dialect).catalog
    ∀ e ∈ s.entityModels p, e.table.name ∈ s.order ∧ ∀ r ∈ e.relations,
      r.targetTable ∈ s.order ∧
      (r.deferred = false → s.order.idxOf r.targetTable < s.order.idxOf e.table.name) ∧
      (r.holdsKey = true → (r.deferred = true ↔ r.targetTable = e.table.name ∨
        (s.OnKeyCircle e.table.name ∧ s.OnKeyCircle r.targetTable))) := by
  intro s e he
  have h : (Extraction.ofScript script dialect).catalog.Referential :=
    referential_ofStatements (dialect.resolve script) (originsOf script)
  have htable := table_mem_order h he
  refine ⟨htable, fun r hr => ?_⟩
  obtain ⟨v, hshown⟩ := shown_of_mem he hr
  have htarget : r.targetTable ∈ s.order := hshown.targetTable_eq he ▸ target_mem_order h hshown
  rw [hshown.deferred_eq he]
  refine ⟨htarget, idxOf_lt_of_not_comesLate htable htarget, fun hkey => ?_⟩
  have hrefers := refersTo_of_holdsKey h he hshown hkey
  rw [comesLate_iff_of_refersTo h htable htarget hrefers, isDeferred_infer_iff h,
    isDeferred_infer_iff h, eq_comm]

/-- The tables `a` and `b` refer to each other, and `c` refers to `a`. -/
private def circularScript : String :=
  "CREATE TABLE c (i INT, a INT REFERENCES a); " ++
    "CREATE TABLE a (i INT PRIMARY KEY, b INT REFERENCES b); " ++
    "CREATE TABLE b (i INT PRIMARY KEY, a INT REFERENCES a)"

private abbrev circular : Catalog :=
  (Extraction.ofScript circularScript .generic).catalog

/-- The tables of that script. -/
private def circularTables : List Table :=
  let plain (name : String) : Column := { name, declaredType := "INT", dataType := .integer }
  let key : Column := { plain "i" with nullable := false, primaryKey := true }
  let reference (column target : String) : ForeignKey := {
    name := none, columns := [column], targetTable := target, targetColumns := ["i"]
    onDelete := .noAction, onUpdate := .noAction }
  [{ name := "c", columns := [plain "i", plain "a"], foreignKeys := [reference "a" "a"] },
    { name := "a", columns := [key, plain "b"], primaryKey := ["i"],
      foreignKeys := [reference "b" "b"] },
    { name := "b", columns := [key, plain "a"], primaryKey := ["i"],
      foreignKeys := [reference "a" "a"] }]

/-- What one of its foreign keys yields. -/
private def circularReference (owner column target : String) : Relationship := {
  kind := .manyToOne, owner, target, columns := [column], targetColumns := ["i"]
  onDelete := .noAction }

/-- What a script declares. To compare this form with the other, the kernel would read the script; it
does not if the script is a variable. -/
private abbrev catalogOf (script : String) : Catalog :=
  (Extraction.ofScript script .generic).catalog

private theorem catalogOf_eq (script : String) :
    catalogOf script = (Extraction.ofScript script .generic).catalog :=
  rfl

/-- The catalog has two tables that refer to each other, and a third one. -/
private theorem circular_eq : circular = { tables := circularTables } ∧
    (Extraction.ofScript circularScript .generic).catalog = { tables := circularTables } := by
  have hcatalog : (Extraction.ofScript circularScript .generic).catalog =
      { tables := circularTables } := by
    have hchars : circularScript.toList = _ :=
      toList_append_of (toList_append_of String.toList_ofList String.toList_ofList)
        String.toList_ofList
    rw [Extraction.ofScript_of_toList hchars]
    decide +kernel
  have hcircular : circular = catalogOf circularScript := rfl
  exact ⟨(hcircular.trans (catalogOf_eq _)).trans hcatalog, hcatalog⟩

/-- Their order, and the circle. -/
private theorem order_circular : (Schema.infer circular).order = ["a", "b", "c"] ∧
    (Schema.infer circular).cycles = [⟨["a", "b"]⟩] := by
  have hentities : (circularTables.filter fun t => t.kind == .entity).map (·.name) =
      ["c", "a", "b"] := by decide +kernel
  have hrelated : (outcomesOf circularTables).filterMap (·.related?) =
      [circularReference "c" "a" "a", circularReference "a" "b" "b",
        circularReference "b" "a" "a"] := by decide +kernel
  have hcomponents : (dependencyGraph ["c", "a", "b"]
      [circularReference "c" "a" "a", circularReference "a" "b" "b",
        circularReference "b" "a" "a"]).components = [[1, 2], [0]] :=
    Graph.components_of_within (k := 7) (by decide +kernel)
  rw [circular_eq.1, Schema.infer, hentities, hrelated]
  dsimp only
  rw [generationOrder, generationOrder?, Graph.schedule?, hcomponents]
  decide +kernel

/-- Two views of its tables with a foreign key: one beside the circle, one on it. -/
private theorem views_circular :
    (∃ t ∈ circular.tables, t.kind = .entity ∧ t.name = "c" ∧
      ∃ v ∈ (Schema.infer circular).viewsOf t.name, v.other = "a") ∧
    ∃ t ∈ circular.tables, t.kind = .entity ∧ t.name = "a" ∧
      ∃ v ∈ (Schema.infer circular).viewsOf t.name,
        v.inverse = false ∧ v.kind = .manyToOne ∧ v.other = "b" := by
  rw [circular_eq.1]
  decide +kernel

/-- Beside a circle, a relation leads to an earlier entity. Another one lies on the circle. -/
theorem deferral_exact_of_circle :
    (∃ e ∈ (Schema.infer circular).entityModels BuiltIn.axum, ∃ r ∈ e.relations,
      r.deferred = false ∧ (Schema.infer circular).order.idxOf r.targetTable <
        (Schema.infer circular).order.idxOf e.table.name) ∧
    ∃ e ∈ (Schema.infer circular).entityModels BuiltIn.axum, ∃ r ∈ e.relations,
      r.holdsKey = true ∧ r.deferred = true ∧ (Schema.infer circular).OnKeyCircle e.table.name ∧
        (Schema.infer circular).OnKeyCircle r.targetTable := by
  have h := ofScript_referential circularScript .generic
  have hexact := deferral_exact circularScript .generic BuiltIn.axum
  -- the schema is never computed, but for its order and its circles
  rw [circular_eq.2, ← circular_eq.1] at h hexact
  obtain ⟨horder, hcycles⟩ := order_circular
  have hlate (x y : String) : (Schema.infer circular).comesLate x y =
      ({ order := ["a", "b", "c"], cycles := [⟨["a", "b"]⟩] } : Schema).comesLate x y := by
    simp only [Schema.comesLate, Schema.isDeferred, horder, hcycles]
  have hdeferred {e : Entity} {r : Relation}
      (he : e ∈ (Schema.infer circular).entityModels BuiltIn.axum) (hr : r ∈ e.relations) :
      r.deferred = ({ order := ["a", "b", "c"], cycles := [⟨["a", "b"]⟩] } : Schema).comesLate
        e.table.name r.targetTable := by
    obtain ⟨v, hshown⟩ := shown_of_mem he hr
    rw [hshown.deferred_eq he, hlate]
  obtain ⟨⟨t, ht, hkind, hname, v, hv, hother⟩,
    t', ht', hkind', hname', v', hv', hinverse, hone, hother'⟩ := views_circular
  have he := build_mem h BuiltIn.axum ht hkind
  have he' := build_mem h BuiltIn.axum ht' hkind'
  obtain ⟨r, hshown⟩ := exists_shown he hv
  obtain ⟨r', hshown'⟩ := exists_shown he' hv'
  have hr := hshown.mem.2
  have hr' := hshown'.mem.2
  have htarget : r.targetTable = "a" := (hshown.targetTable_eq he).trans hother
  have htarget' : r'.targetTable = "b" := (hshown'.targetTable_eq he').trans hother'
  have hkey : r'.holdsKey = true := by
    rw [hshown'.eq he', Relation.holdsKey]
    simp [RelationView.relation, hinverse, hone]
  have hfree : r.deferred = false := by
    rw [hdeferred he hr, htarget]
    exact (congrArg (Schema.comesLate _ · "a") hname).trans (by decide)
  have hcircle : r'.deferred = true := by
    rw [hdeferred he' hr', htarget']
    exact (congrArg (Schema.comesLate _ · "b") hname').trans (by decide)
  -- the target of one relation comes earlier, that of the other is on the circle
  obtain ⟨-, hearlier, -⟩ := (hexact _ he).2 r hr
  obtain ⟨-, -, htight⟩ := (hexact _ he').2 r' hr'
  have hne : r'.targetTable ≠ t'.name := by
    rw [htarget', hname']
    decide
  exact ⟨⟨_, he, r, hr, hfree, hearlier hfree⟩, _, he', r', hr', hkey, hcircle,
    ((htight hkey).1 hcircle).resolve_left hne⟩

end CrudGen
