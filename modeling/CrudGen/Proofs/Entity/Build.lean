import CrudGen.Entity.Build
import CrudGen.Proofs.Entity.Names

/-!
# Entities — what a schema is made into

The tables of a schema that are no junctions become its entities, one each and in generation order.

Main results:

* `build_of_mem`, `build_mem` — the entities of a schema are what its tables are built into.
* `names_of_entity`, `pairwise_names` — how entities are called, and that their names differ.
-/

namespace CrudGen

variable {s : Schema} {p : Profile} {e : Entity} {c : Catalog}

/-- An entity of a schema is that of a table, under the names that it is assigned. -/
theorem build_of_mem (he : e ∈ s.entityModels p) :
    e.table ∈ s.orderedEntities ∧ e = .build s p (.assign s p) e.table := by
  obtain ⟨t, ht, rfl⟩ := List.mem_map.1 he
  exact ⟨ht, rfl⟩

/-- The entity of a table that is no junction belongs to the schema. -/
theorem build_mem {c : Catalog} (h : c.Referential) (p : Profile) {t : Table} (ht : t ∈ c.tables)
    (hkind : t.kind = .entity) :
    Entity.build (Schema.infer c) p (.assign (Schema.infer c) p) t ∈
      (Schema.infer c).entityModels p :=
  List.mem_map_of_mem ((mem_orderedEntities_infer h.distinct.nodup).2 ⟨ht, hkind⟩)

/-- So does the entity of a table that a script creates. -/
theorem build_mem_ofScript {script : String} {dialect : Sql.Dialect} {tables : List Table}
    (h : (Extraction.ofScript script dialect).catalog = { tables }) (p : Profile) {t : Table}
    (ht : t ∈ tables) (hkind : t.kind = .entity) :
    let s := Schema.infer (Extraction.ofScript script dialect).catalog
    Entity.build s p (.assign s p) t ∈ s.entityModels p := by
  have hreferential : (Extraction.ofScript script dialect).catalog.Referential :=
    referential_ofStatements _ _
  exact build_mem hreferential p (by rwa [h]) hkind

/-- The table of an entity is a table of the catalog, and no junction. -/
theorem table_of_mem (h : c.Referential) (he : e ∈ (Schema.infer c).entityModels p) :
    e.table ∈ c.tables ∧ e.table.kind = .entity :=
  (mem_orderedEntities_infer h.distinct.nodup).1 (build_of_mem he).1

theorem not_isJunction_of_mem (h : c.Referential) (he : e ∈ (Schema.infer c).entityModels p) :
    (Schema.infer c).isJunction e.table.name = false := by
  obtain ⟨ht, hkind⟩ := table_of_mem h he
  rw [Schema.isJunction, kind?_infer h.distinct.nodup ht, hkind]
  rfl

/-- The entities of a schema have different tables. -/
theorem nodup_tables (h : c.Referential) (p : Profile) :
    (((Schema.infer c).entityModels p).map (·.table.name)).Nodup := by
  have htables : ((Schema.infer c).entityModels p).map (·.table.name) = (Schema.infer c).order := by
    rw [← orderedEntities_infer h.distinct.nodup]
    exact List.map_map
  exact htables ▸ nodup_order_infer h.distinct.nodup

/-- A table is called as one of some name is: its own, or that name with a number. -/
theorem resolve_names (s : Schema) (p : Profile) (table : String) :
    ∃ name, (NameTable.assign s p).resolve p table = { EntityNames.ofTable p name with
      table := ((NameTable.assign s p).resolve p table).table } := by
  rw [NameTable.resolve]
  cases hget : (NameTable.assign s p).get? table with
  | none => exact ⟨table, rfl⟩
  | some found =>
    obtain ⟨before, after, hsplit⟩ := List.append_of_mem (NameTable.mem_of_get? hget)
    have hsearch := (NameTable.assigned_assign s p).searched before table found after hsplit
    rcases hsearch.found_cases with rfl | ⟨m, rfl⟩
    · exact ⟨table, rfl⟩
    · exact ⟨Casing.toSnake table ++ "_" ++ toString m, rfl⟩

/-- An entity is called as a table of some name is: its own, or that name with a number. -/
theorem names_of_entity (he : e ∈ s.entityModels p) :
    ∃ name, e.names = { EntityNames.ofTable p name with table := e.names.table } := by
  have hnames : e.names = (NameTable.assign s p).resolve p e.table.name :=
    congrArg Entity.names (build_of_mem he).2
  rw [hnames]
  exact resolve_names s p e.table.name

/-- An entity has the names that its table is assigned. -/
theorem get?_names (he : e ∈ (Schema.infer c).entityModels p) :
    (NameTable.assign (Schema.infer c) p).get? e.table.name = some e.names := by
  obtain ⟨ht, hbuilt⟩ := build_of_mem he
  obtain ⟨found, hget⟩ := NameTable.exists_get? (p := p) (List.mem_map_of_mem ht)
  have hnames : e.names = (NameTable.assign (Schema.infer c) p).resolve p e.table.name :=
    congrArg Entity.names hbuilt
  rw [hnames, NameTable.resolve, hget]
  rfl

/-- The names of any two entities differ in every use. -/
theorem pairwise_names (h : c.Referential) (p : Profile) :
    ((Schema.infer c).entityModels p).Pairwise fun e e' => e.names.Apart e'.names :=
  (List.pairwise_map.1 (nodup_tables h p)).imp_of_mem fun he he' hne =>
    NameTable.apart_of_get? hne (get?_names he) (get?_names he')

/-- With one table, which is no junction, there is one entity, and it is called as the table is. -/
theorem entityModels_single {name : String} (hlength : c.tables.length = 1)
    (hone : ∀ t ∈ c.tables, t.kind = .entity ∧ t.name = name) (p : Profile) :
    ∃ e, (Schema.infer c).entityModels p = [e] ∧ e.names = EntityNames.ofTable p name := by
  obtain ⟨t, htables⟩ := List.length_eq_one_iff.1 hlength
  obtain ⟨hkind, rfl⟩ := hone t (htables ▸ List.mem_singleton_self t)
  have hnodup : (c.tables.map (·.name)).Nodup := htables ▸ List.nodup_singleton _
  -- the one table is an entity, so the order is made of it alone
  have horder : (Schema.infer c).order = [t.name] := by
    have hperm := perm_order_infer c
    rwa [Catalog.entityNames, htables, List.filter_singleton, hkind, beq_self_eq_true, cond_true,
      List.map_singleton, List.perm_singleton] at hperm
  have hentities : (Schema.infer c).orderedEntities = [t] := by
    rw [Schema.orderedEntities, horder, List.filterMap_cons_some
      (table?_infer hnodup (htables ▸ List.mem_singleton_self t)), List.filterMap_nil]
  have hnames : (NameTable.assign (Schema.infer c) p).names =
      [(t.name, EntityNames.ofTable p t.name)] := by
    rw [NameTable.assign, hentities]
    rfl
  refine ⟨.build (Schema.infer c) p (.assign (Schema.infer c) p) t, ?_, ?_⟩
  · rw [Schema.entityModels, hentities]
    rfl
  · have hbuilt : (Entity.build (Schema.infer c) p (.assign (Schema.infer c) p) t).names =
        (NameTable.assign (Schema.infer c) p).resolve p t.name := rfl
    rw [hbuilt, NameTable.resolve, NameTable.get?, hnames, List.lookup_cons_self]
    rfl

end CrudGen
