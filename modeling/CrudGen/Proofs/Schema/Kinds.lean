import CrudGen.Proofs.Data.Keyed
import CrudGen.Proofs.Schema.Order
import CrudGen.Schema.Infer

/-!
# Schemas — kinds of tables, and the entities in order

An inferred schema classifies each table of its catalog by the table alone. Where names are
distinct, whatever asks for the kind of a name is told the kind of the table declared under it, and a
name in the generation order is that of exactly one entity.

Main results:

* `classified_infer`, `entities_infer` — the tables with their kinds, and those that are entities.
* `kind?_infer`, `isJunction_infer`, `any_isJunction`, `table?_infer` — what is found under the name of
  a table.
* `orderedEntities_infer`, `nodup_order_infer` — the order names each entity once, and no others.
-/

namespace CrudGen

variable {c : Catalog} {t : Table}

theorem kind_eq_junction_iff : t.kind = .junction ↔ t.isJunction = true := by
  unfold Table.kind
  split <;> simp_all

theorem classified_infer (c : Catalog) :
    (Schema.infer c).classified = c.tables.map fun t => (t, t.kind) := by
  simp only [Schema.classified, Schema.infer]
  induction c.tables with
  | nil => rfl
  | cons t rest ih => rw [List.map_cons, List.zip_cons_cons, ih, List.map_cons]

/-- The entities of an inferred schema are the tables that are no junctions. -/
theorem entities_infer (c : Catalog) :
    (Schema.infer c).entities = c.tables.filter fun t => t.kind == .entity := by
  rw [Schema.entities, classified_infer, List.filter_map, List.map_map]
  exact List.map_id' _

/-- Under its name, a table is found with its kind. -/
theorem kind?_infer (hnodup : (c.tables.map (·.name)).Nodup) (ht : t ∈ c.tables) :
    (Schema.infer c).kind? t.name = some t.kind := by
  obtain ⟨before, after, htables⟩ := List.append_of_mem ht
  have hfind : c.tables.find? (fun u => u.name == t.name) = some t := by
    refine List.find?_eq_some_iff_append.2 ⟨by simp, before, after, htables, fun u hu => ?_⟩
    rw [htables, List.map_append, List.map_cons, List.nodup_append] at hnodup
    simpa using hnodup.2.2 u.name (List.mem_map_of_mem hu) t.name List.mem_cons_self
  rw [Schema.kind?, classified_infer, List.find?_map]
  have hkey : ((fun p : Table × TableKind => p.1.name == t.name) ∘ fun u : Table => (u, u.kind)) =
      fun u => u.name == t.name := rfl
  rw [hkey, hfind]
  rfl

theorem isJunction_infer (hnodup : (c.tables.map (·.name)).Nodup) (ht : t ∈ c.tables) :
    (Schema.infer c).isJunction t.name = t.isJunction := by
  rw [Schema.isJunction, kind?_infer hnodup ht, Bool.eq_iff_iff, ← kind_eq_junction_iff]
  simp

/-- A name is that of a junction exactly if the table declared under it is one. -/
theorem any_isJunction (hnodup : (c.tables.map (·.name)).Nodup) (ht : t ∈ c.tables) :
    (c.tables.any fun u => u.name == t.name && u.isJunction) = t.isJunction := by
  rw [Bool.eq_iff_iff, List.any_eq_true]
  simp only [Bool.and_eq_true, beq_iff_eq]
  constructor
  · rintro ⟨u, hu, hsame, hjunction⟩
    exact List.inj_on_of_nodup_map hnodup hu ht hsame ▸ hjunction
  · exact fun hjunction => ⟨t, ht, rfl, hjunction⟩

-- ---------------------------------------------------------------------------
-- The entities in generation order
-- ---------------------------------------------------------------------------

/-- Under its name, a table is found. -/
theorem table?_infer (hnodup : (c.tables.map (·.name)).Nodup) (ht : t ∈ c.tables) :
    (Schema.infer c).table? t.name = some t :=
  find?_key hnodup ht

theorem mem_of_table?_infer {name : String} (h : (Schema.infer c).table? name = some t) :
    t ∈ c.tables ∧ t.name = name :=
  ⟨List.mem_of_find?_eq_some h, by simpa using List.find?_some h⟩

/-- The names of the entities of a catalog, in declaration order. -/
def Catalog.entityNames (c : Catalog) : List String :=
  (c.tables.filter fun t => t.kind == .entity).map (·.name)

theorem perm_order_infer (c : Catalog) : (Schema.infer c).order.Perm c.entityNames :=
  perm_order _ _

theorem nodup_order_infer (hnodup : (c.tables.map (·.name)).Nodup) :
    (Schema.infer c).order.Nodup :=
  (perm_order_infer c).nodup_iff.2 (hnodup.sublist (List.filter_sublist.map _))

/-- A name in the order is that of an entity. -/
theorem mem_order_infer_iff {name : String} :
    name ∈ (Schema.infer c).order ↔ ∃ t ∈ c.tables, t.kind = .entity ∧ t.name = name := by
  rw [(perm_order_infer c).mem_iff, Catalog.entityNames]
  simp [and_assoc]

/-- The entities in generation order have the names of the order. -/
theorem orderedEntities_infer (hnodup : (c.tables.map (·.name)).Nodup) :
    (Schema.infer c).orderedEntities.map (·.name) = (Schema.infer c).order := by
  have hfound : ∀ name ∈ (Schema.infer c).order,
      ((Schema.infer c).table? name).map (·.name) = some name := by
    intro name hname
    obtain ⟨t, ht, -, rfl⟩ := mem_order_infer_iff.1 hname
    rw [table?_infer hnodup ht]
    rfl
  rw [Schema.orderedEntities, List.map_filterMap, List.filterMap_congr hfound,
    List.filterMap_some]

theorem mem_orderedEntities_infer (hnodup : (c.tables.map (·.name)).Nodup) :
    t ∈ (Schema.infer c).orderedEntities ↔ t ∈ c.tables ∧ t.kind = .entity := by
  rw [Schema.orderedEntities, List.mem_filterMap]
  constructor
  · rintro ⟨name, hname, hfound⟩
    obtain ⟨ht, rfl⟩ := mem_of_table?_infer hfound
    obtain ⟨u, hu, hkind, hsame⟩ := mem_order_infer_iff.1 hname
    exact ⟨ht, List.inj_on_of_nodup_map hnodup hu ht hsame ▸ hkind⟩
  · rintro ⟨ht, hkind⟩
    exact ⟨t.name, mem_order_infer_iff.2 ⟨t, ht, hkind, rfl⟩, table?_infer hnodup ht⟩

end CrudGen
