import CrudGen.Proofs.Schema.Circles
import CrudGen.Proofs.Schema.ForeignKeys

/-!
# Schemas — the ends of relationships

A relationship should end at entities, as nothing is generated for a junction. A foreign key of an
entity that refers to a junction is reported and makes no relationship. The foreign keys of a
junction are not looked at in this way: a junction that refers to another one makes a relationship
that ends there.

Main results:

* `relationships_end_at_entities` — which relationships end at a junction, and what is reported.
* `relationship_ends_at_junction` — a junction between an entity and a junction makes one.
-/

namespace CrudGen

open Sql (Dialect)

-- ---------------------------------------------------------------------------
-- Kinds and the order
-- ---------------------------------------------------------------------------

/-- An entity of a schema, which has a place in the generation order. -/
def Schema.IsEntity (s : Schema) (name : String) : Prop :=
  s.kind? name = some .entity ∧ name ∈ s.order

variable {c : Catalog} {t : Table}

/-- The target of a foreign key is asked for its kind as the schema has it. -/
theorem any_target_isJunction (h : c.Referential) {fk : ForeignKey} (hfk : fk.Resolved c) :
    (c.tables.any fun u => u.name == fk.targetTable && u.isJunction) =
      (Schema.infer c).isJunction fk.targetTable := by
  obtain ⟨target, htarget, hname, -⟩ := hfk.target
  rw [← hname, any_isJunction h.distinct.nodup htarget, isJunction_infer h.distinct.nodup htarget]

/-- The generation order has the entities of the schema. -/
theorem mem_order_infer (hkind : t.kind = .entity) (ht : t ∈ c.tables) :
    t.name ∈ (Schema.infer c).order := by
  refine (perm_order _ _).mem_iff.2 (List.mem_map_of_mem (f := fun t : Table => t.name) ?_)
  exact List.mem_filter.2 ⟨ht, by simpa using hkind⟩

/-- A declared table is an entity with a place in the order, or a junction. -/
theorem isEntity_or_isJunction (hnodup : (c.tables.map (·.name)).Nodup) (ht : t ∈ c.tables) :
    (Schema.infer c).IsEntity t.name ∨ (Schema.infer c).isJunction t.name = true := by
  cases hkind : t.kind with
  | entity => exact .inl ⟨hkind ▸ kind?_infer hnodup ht, mem_order_infer hkind ht⟩
  | junction =>
    rw [isJunction_infer hnodup ht]
    exact .inr (kind_eq_junction_iff.1 hkind)

theorem Schema.IsEntity.not_isJunction {s : Schema} {name : String} (h : s.IsEntity name) :
    s.isJunction name = false := by
  rw [Schema.isJunction, h.1]
  rfl

-- ---------------------------------------------------------------------------
-- The ends of relationships
-- ---------------------------------------------------------------------------

/-- A relationship comes from a foreign key of an entity that refers to no junction, or from a
junction. -/
inductive Relationship.ComesFrom (s : Schema) (r : Relationship) : Table → Prop
  | entity {t : Table} {fk : ForeignKey} (hkind : t.kind = .entity) (hfk : fk ∈ t.foreignKeys)
      (htarget : s.isJunction fk.targetTable = false) (howner : r.owner = t.name)
      (hend : r.target = fk.targetTable) (hout : OutcomeOf t fk (.related r)) : ComesFrom s r t
  | junction {t : Table} (hjunction : t.isJunction = true) (hlinks : LinksTargets t r) :
      ComesFrom s r t

theorem comesFrom_of_mem (h : c.Referential) {r : Relationship}
    (hr : r ∈ (Schema.infer c).relationships) :
    ∃ t ∈ c.tables, r.ComesFrom (Schema.infer c) t := by
  obtain ⟨o, ho, hrelated⟩ := List.mem_filterMap.1 hr
  obtain ⟨t, ht, hout⟩ := List.mem_flatMap.1 ho
  refine ⟨t, ht, ?_⟩
  unfold Table.outcomes at hout
  split at hout
  -- a junction has one outcome, which joins its two foreign keys
  · rename_i hkind
    have hjunction := kind_eq_junction_iff.1 hkind
    obtain ⟨r', heq, hlinks⟩ := junctionOutcomes_eq hjunction
    rw [heq, List.mem_singleton] at hout
    subst hout
    cases hrelated
    exact .junction hjunction hlinks
  -- any other table has one outcome for each foreign key
  · rename_i hkind
    obtain ⟨fk, hfk, rfl⟩ := List.mem_map.1 hout
    have hyields := outcomeOf_foreignKeyOutcome t
      (fun name => c.tables.any fun u => u.name == name && u.isJunction) fk
    unfold Table.foreignKeyOutcome at hrelated hyields
    split at hrelated
    · cases hrelated
    -- the reference was not refused, so its target is no junction
    · rename_i hno
      have htarget : (Schema.infer c).isJunction fk.targetTable = false := by
        rw [← any_target_isJunction h (h.resolved t ht fk hfk)]
        exact Bool.not_eq_true _ ▸ hno
      rw [if_neg hno] at hyields
      cases hrelated
      exact .entity hkind hfk htarget rfl rfl hyields

/-- A relationship that ends at a junction is that of a junction which refers to it. -/
theorem ends_of_relationship (h : c.Referential) {r : Relationship}
    (hr : r ∈ (Schema.infer c).relationships) {name : String}
    (hname : name = r.owner ∨ name = r.target) :
    (Schema.infer c).IsEntity name ∨ (Schema.infer c).isJunction name = true ∧
      ∃ t ∈ c.tables, t.isJunction = true ∧ r.via = some t.name ∧
        ∃ fk ∈ t.foreignKeys, fk.targetTable = name := by
  have hnodup := h.distinct.nodup
  obtain ⟨t, ht, hfrom⟩ := comesFrom_of_mem h hr
  cases hfrom with
  | @entity fk hkind hfk htarget howner hend _ =>
    refine .inl ?_
    rcases hname with rfl | rfl
    · exact howner ▸ ⟨hkind ▸ kind?_infer hnodup ht, mem_order_infer hkind ht⟩
    · obtain ⟨target, hmem, hdeclared, -⟩ := (h.resolved t ht fk hfk).target
      rw [hend]
      rw [← hdeclared] at htarget ⊢
      exact (isEntity_or_isJunction hnodup hmem).resolve_right (by simp [htarget])
  | junction hjunction hlinks =>
    -- both ends are tables that foreign keys of the junction refer to
    obtain ⟨first, same, second, later, hfks, -, -, -, howner, -, hend, -⟩ := hlinks.keys
    obtain ⟨fk, hfk, htarget⟩ : ∃ fk ∈ t.foreignKeys, fk.targetTable = name := by
      rw [hfks]
      rcases hname with rfl | rfl
      · exact ⟨first, by simp, howner.symm⟩
      · exact ⟨second, by simp, hend.symm⟩
    obtain ⟨target, hmem, hdeclared, -⟩ := (h.resolved t ht fk hfk).target
    have heither := isEntity_or_isJunction hnodup hmem
    rw [hdeclared, htarget] at heither
    exact heither.imp_right fun hat => ⟨hat, t, ht, hjunction, hlinks.via, fk, hfk, htarget⟩

/-- Every relationship ends at entities exactly if no junction refers to a junction. -/
theorem ends_at_entities_iff (h : c.Referential) :
    (∀ r ∈ (Schema.infer c).relationships,
        (Schema.infer c).IsEntity r.owner ∧ (Schema.infer c).IsEntity r.target) ↔
      ∀ t ∈ c.tables, t.isJunction = true → ∀ fk ∈ t.foreignKeys,
        (Schema.infer c).isJunction fk.targetTable = false := by
  constructor
  · intro hends t ht hjunction fk hfk
    obtain ⟨r, hr, hlinks⟩ := junctionOutcomes_eq hjunction
    have hmem : r ∈ (Schema.infer c).relationships := by
      refine List.mem_filterMap.2 ⟨.related r, List.mem_flatMap.2 ⟨t, ht, ?_⟩, rfl⟩
      rw [Table.outcomes, kind_eq_junction_iff.2 hjunction, hr]
      exact List.mem_singleton_self _
    obtain ⟨howner, htarget⟩ := hends r hmem
    -- every foreign key of the junction goes to one of the two ends
    obtain ⟨first, same, second, later, hfks, hsame, -, hlater, hfirst, -, hsecond, -⟩ :=
      hlinks.keys
    have hend : fk.targetTable = r.owner ∨ fk.targetTable = r.target := by
      rw [hfirst, hsecond]
      rw [hfks] at hfk
      rcases List.mem_cons.1 hfk with rfl | hfk
      · exact .inl rfl
      · rcases List.mem_append.1 hfk with hfk | hfk
        · exact .inl (hsame fk hfk)
        · rcases List.mem_cons.1 hfk with rfl | hfk
          · exact .inr rfl
          · exact hlater fk hfk
    rcases hend with hend | hend
    · exact hend ▸ howner.not_isJunction
    · exact hend ▸ htarget.not_isJunction
  · intro hnone r hr
    have hend {name : String} (hname : name = r.owner ∨ name = r.target) :
        (Schema.infer c).IsEntity name := by
      refine (ends_of_relationship h hr hname).resolve_right ?_
      rintro ⟨hat, t, ht, hjunction, -, fk, hfk, rfl⟩
      rw [hnone t ht hjunction fk hfk] at hat
      cases hat
    exact ⟨hend (.inl rfl), hend (.inr rfl)⟩

-- ---------------------------------------------------------------------------
-- Relationships of foreign keys
-- ---------------------------------------------------------------------------

/-- The relationship that a foreign key of an entity stands for. -/
def Table.keyRelationship (t : Table) (fk : ForeignKey) : Relationship :=
  { kind := if t.isUniqueSet fk.columns then .oneToOne else .manyToOne
    owner := t.name
    target := fk.targetTable
    columns := fk.columns
    targetColumns := fk.targetColumns
    onDelete := fk.onDelete }

theorem kind_keyRelationship (t : Table) (fk : ForeignKey) :
    (t.keyRelationship fk).kind = .manyToOne ∨ (t.keyRelationship fk).kind = .oneToOne := by
  unfold Table.keyRelationship
  dsimp only
  split
  · exact .inr rfl
  · exact .inl rfl

theorem related_foreignKeyOutcome_iff {isJunction : String → Bool} {fk : ForeignKey}
    {r : Relationship} : (t.foreignKeyOutcome isJunction fk).related? = some r ↔
      isJunction fk.targetTable = false ∧ r = t.keyRelationship fk := by
  unfold Table.foreignKeyOutcome
  split
  · rename_i hjunction
    simp [Outcome.related?, hjunction]
  · rename_i hentity
    rw [Bool.not_eq_true] at hentity
    simp only [hentity, true_and]
    exact Option.some_inj.trans eq_comm

/-- The relationships without a junction are those of the foreign keys of entities that refer to
entities. -/
theorem mem_relationships_of_key_iff (h : c.Referential) {r : Relationship} :
    r ∈ (Schema.infer c).relationships ∧ r.via = none ↔
      ∃ t ∈ c.tables, t.kind = .entity ∧ ∃ fk ∈ t.foreignKeys,
        (Schema.infer c).isJunction fk.targetTable = false ∧ r = t.keyRelationship fk := by
  let isJunction (name : String) : Bool := c.tables.any fun u => u.name == name && u.isJunction
  have hmem : r ∈ (Schema.infer c).relationships ↔
      ∃ t ∈ c.tables, ∃ o ∈ t.outcomes isJunction, o.related? = some r := by
    have hrelationships : (Schema.infer c).relationships =
        (c.tables.flatMap fun t => t.outcomes isJunction).filterMap fun o => o.related? := rfl
    simp only [hrelationships, List.mem_filterMap, List.mem_flatMap]
    exact ⟨fun ⟨o, ⟨t, ht, ho⟩, hr⟩ => ⟨t, ht, o, ho, hr⟩,
      fun ⟨t, ht, o, ho, hr⟩ => ⟨o, ⟨t, ht, ho⟩, hr⟩⟩
  have htarget {t : Table} (ht : t ∈ c.tables) {fk : ForeignKey} (hfk : fk ∈ t.foreignKeys) :
      isJunction fk.targetTable = (Schema.infer c).isJunction fk.targetTable :=
    any_target_isJunction h (h.resolved t ht fk hfk)
  rw [hmem]
  constructor
  · rintro ⟨⟨t, ht, o, ho, hr⟩, hvia⟩
    cases hkind : t.kind with
    | entity =>
      rw [Table.outcomes, hkind] at ho
      obtain ⟨fk, hfk, rfl⟩ := List.mem_map.1 ho
      obtain ⟨hentity, rfl⟩ := related_foreignKeyOutcome_iff.1 hr
      exact ⟨t, ht, hkind, fk, hfk, htarget ht hfk ▸ hentity, rfl⟩
    | junction =>
      -- the relationship of a junction names the junction
      obtain ⟨r', heq, hlinks⟩ := junctionOutcomes_eq (kind_eq_junction_iff.1 hkind)
      rw [Table.outcomes, hkind] at ho
      rw [heq, List.mem_singleton] at ho
      subst ho
      obtain rfl : r' = r := Option.some_inj.1 hr
      rw [hlinks.via] at hvia
      cases hvia
  · rintro ⟨t, ht, hkind, fk, hfk, hentity, rfl⟩
    refine ⟨⟨t, ht, t.foreignKeyOutcome isJunction fk, ?_, ?_⟩, rfl⟩
    · rw [Table.outcomes, hkind]
      exact List.mem_map_of_mem hfk
    · exact related_foreignKeyOutcome_iff.2 ⟨(htarget ht hfk).trans hentity, rfl⟩

-- ---------------------------------------------------------------------------
-- What is reported
-- ---------------------------------------------------------------------------

/-- The report of a foreign key that refers to a junction. -/
def Table.junctionReport (t : Table) (fk : ForeignKey) : UnresolvedReference :=
  { table := t.name
    columns := fk.columns
    target := fk.targetTable
    reason := "target is a junction table" }

/-- The foreign keys of an entity that refer to junctions are reported, each once and in order. -/
theorem reports_of_entity (h : c.Referential) (ht : t ∈ c.tables) (hkind : t.kind = .entity) :
    (Schema.infer c).unresolved.filter (·.table == t.name) =
      (t.foreignKeys.filter fun fk => (Schema.infer c).isJunction fk.targetTable).map
        t.junctionReport := by
  have hhome : (outcomesOf c.tables).filter (·.home == t.name) = t.outcomes _ :=
    filter_home_flatMap h.distinct.nodup ht _
  have hreports := filter_dangling (outcomesOf c.tables) t.name
  rw [hhome, Table.outcomes, hkind] at hreports
  have hunresolved : (Schema.infer c).unresolved =
      (outcomesOf c.tables).filterMap fun o => o.dangling? := rfl
  rw [hunresolved, hreports, List.filterMap_map, ← List.filterMap_eq_map, List.filterMap_filter]
  refine List.filterMap_congr fun fk hfk => ?_
  have hany := any_target_isJunction h (h.resolved t ht fk hfk)
  simp only [Function.comp_apply, Table.foreignKeyOutcome, hany]
  cases (Schema.infer c).isJunction fk.targetTable <;> rfl

/-- **Ends.** In the schema of a script, an end of a relationship is an entity, which has a place in
the generation order, unless it is a junction that another junction refers to: the relationship is
then that of this other junction. So all ends are entities exactly if no junction refers to a
junction. The foreign keys of entities that refer to junctions are reported, each once. -/
theorem relationships_end_at_entities (script : String) (dialect : Dialect) :
    let s := Schema.infer (Extraction.ofScript script dialect).catalog
    (∀ r ∈ s.relationships, ∀ name, name = r.owner ∨ name = r.target →
      s.IsEntity name ∨ s.isJunction name = true ∧
        ∃ t ∈ s.tables, t.isJunction = true ∧ r.via = some t.name ∧
          ∃ fk ∈ t.foreignKeys, fk.targetTable = name) ∧
    ((∀ r ∈ s.relationships, s.IsEntity r.owner ∧ s.IsEntity r.target) ↔
      ∀ t ∈ s.tables, t.isJunction = true → ∀ fk ∈ t.foreignKeys,
        s.isJunction fk.targetTable = false) ∧
    ∀ t ∈ s.tables, t.kind = .entity →
      s.unresolved.filter (·.table == t.name) =
        (t.foreignKeys.filter fun fk => s.isJunction fk.targetTable).map t.junctionReport := by
  have h := referential_ofStatements (dialect.resolve script) (originsOf script)
  exact ⟨fun r hr name hname => ends_of_relationship h hr hname, ends_at_entities_iff h,
    fun t ht hkind => reports_of_entity h ht hkind⟩

/-- A junction between an entity and a junction makes a relationship that ends at a junction. -/
theorem relationship_ends_at_junction :
    ¬ ∀ (script : String) (dialect : Dialect),
      let s := Schema.infer (Extraction.ofScript script dialect).catalog
      ∀ r ∈ s.relationships, s.kind? r.owner = some .entity ∧ s.kind? r.target = some .entity := by
  intro h
  -- `abc` links `a` and `ab`, which itself links `a` and `b`
  have hscript := h ("CREATE TABLE a(i INT); CREATE TABLE b(i INT); " ++
    "CREATE TABLE ab(x INT REFERENCES a(i), y INT REFERENCES b(i), PRIMARY KEY(x, y)); " ++
    "CREATE TABLE abc(x INT, y INT, z INT REFERENCES a(i), PRIMARY KEY(x, y, z), " ++
    "FOREIGN KEY(x, y) REFERENCES ab)") .generic
  rw [Extraction.ofScript_of_toList (toList_append_of (toList_append_of (toList_append_of
    String.toList_ofList String.toList_ofList) String.toList_ofList) String.toList_ofList)]
    at hscript
  revert hscript
  decide +kernel

end CrudGen
