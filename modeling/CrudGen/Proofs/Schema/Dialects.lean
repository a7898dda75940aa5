import CrudGen.Proofs.Catalog.Dialects
import CrudGen.Schema.Infer

/-!
# Schemas — what a dialect decides

What is inferred from a catalog comes from names, keys and constraints, never from anything else
that columns say, such as their types. A schema is therefore the same in every dialect, apart from
the types of columns.

Main results:

* `Table.outcomes_mapColumns` — foreign keys yield the same, whatever else is changed in columns.
* `Schema.infer_mapColumns` — so does all that is inferred.
* `dialect_decides_types` — two readings of a script differ in nothing but types.
-/

namespace CrudGen

-- ---------------------------------------------------------------------------
-- Tables
-- ---------------------------------------------------------------------------

/-- A table each of whose columns is changed. -/
def Table.mapColumns (f : Column → Column) (t : Table) : Table :=
  { t with columns := t.columns.map f }

/-- A catalog each of whose columns is changed. -/
def Catalog.mapColumns (f : Column → Column) (c : Catalog) : Catalog :=
  { c with tables := c.tables.map (Table.mapColumns f) }

/-- A schema each of whose columns is changed. -/
def Schema.mapColumns (f : Column → Column) (s : Schema) : Schema :=
  { s with tables := s.tables.map (Table.mapColumns f) }

/-- A change of columns that keeps all that anything is inferred from. -/
structure Column.Immaterial (f : Column → Column) : Prop where
  name   : ∀ c, (f c).name = c.name
  unique : ∀ c, (f c).unique = c.unique

section MapColumns

variable {f : Column → Column} (hf : Column.Immaterial f)
include hf

namespace Table

theorem column?_mapColumns (t : Table) (name : String) :
    (t.mapColumns f).column? name = (t.column? name).map f := by
  rw [column?, mapColumns, List.find?_map, column?]
  simp only [Function.comp_def, hf.name]

theorem isUniqueSet_mapColumns (t : Table) (columns : List String) :
    (t.mapColumns f).isUniqueSet columns = t.isUniqueSet columns := by
  have hflag (name : String) :
      ((t.mapColumns f).column? name).any (·.unique) = (t.column? name).any (·.unique) := by
    rw [column?_mapColumns hf, Option.any_map]
    simp only [hf.unique]
  -- only the clause of a single column looks at columns
  match columns with
  | [] => rfl
  | [single] => simp only [isUniqueSet, hflag]; rfl
  | _ :: _ :: _ => rfl

theorem isJunction_mapColumns (t : Table) : (t.mapColumns f).isJunction = t.isJunction := by
  have hcolumns : (t.columns.map f).all
      (fun c => t.isPrimaryKeyColumn c.name || t.isForeignKeyColumn c.name) =
        t.columns.all fun c => t.isPrimaryKeyColumn c.name || t.isForeignKeyColumn c.name := by
    rw [List.all_map]
    simp only [Function.comp_def, hf.name]
  rw [isJunction, isJunction, ← hcolumns]
  rfl

theorem kind_mapColumns (t : Table) : (t.mapColumns f).kind = t.kind := by
  rw [kind, kind, isJunction_mapColumns hf]

/-- Foreign keys yield the same. -/
theorem outcomes_mapColumns (t : Table) (isJunction : String → Bool) :
    (t.mapColumns f).outcomes isJunction = t.outcomes isJunction := by
  have hforeignKey (fk : ForeignKey) :
      (t.mapColumns f).foreignKeyOutcome isJunction fk = t.foreignKeyOutcome isJunction fk := by
    rw [foreignKeyOutcome, foreignKeyOutcome, isUniqueSet_mapColumns hf]
    rfl
  rw [outcomes, outcomes, kind_mapColumns hf]
  cases t.kind with
  | junction => rfl
  | entity => exact List.map_congr_left fun fk _ => hforeignKey fk

end Table

theorem outcomesOf_mapColumns (tables : List Table) :
    outcomesOf (tables.map (Table.mapColumns f)) = outcomesOf tables := by
  have hjunction (name : String) :
      (tables.map (Table.mapColumns f)).any (fun t => t.name == name && t.isJunction) =
        tables.any fun t => t.name == name && t.isJunction := by
    rw [List.any_map]
    refine List.any_congr rfl fun t => ?_
    exact congrArg (t.name == name && ·) (t.isJunction_mapColumns hf)
  rw [outcomesOf, outcomesOf, List.flatMap_map]
  simp only [hjunction, Table.outcomes_mapColumns hf]

-- ---------------------------------------------------------------------------
-- Schemas
-- ---------------------------------------------------------------------------

/-- Of columns that are changed so, nothing else is inferred. -/
theorem Schema.infer_mapColumns (c : Catalog) :
    Schema.infer (c.mapColumns f) = (Schema.infer c).mapColumns f := by
  have houtcomes : outcomesOf (c.mapColumns f).tables = outcomesOf c.tables :=
    outcomesOf_mapColumns hf c.tables
  have hkinds : (c.mapColumns f).tables.map (·.kind) = c.tables.map (·.kind) := by
    rw [Catalog.mapColumns, List.map_map]
    exact List.map_congr_left fun t _ => t.kind_mapColumns hf
  have hentities : ((c.mapColumns f).tables.filter (·.kind == .entity)).map (·.name) =
      (c.tables.filter (·.kind == .entity)).map (·.name) := by
    rw [Catalog.mapColumns, List.filter_map, List.map_map]
    simp only [Function.comp_def, Table.kind_mapColumns hf]
    rfl
  rw [infer, houtcomes, hkinds, hentities]
  rfl

end MapColumns

/-- A schema without the types of columns. -/
def Schema.untyped (s : Schema) : Schema :=
  { s with tables := s.tables.map Table.untyped }

/-- Nothing is inferred from types. -/
theorem Schema.infer_untyped (c : Catalog) :
    Schema.infer c.untyped = (Schema.infer c).untyped :=
  infer_mapColumns (f := Column.untyped) ⟨fun _ => rfl, fun _ => rfl⟩ c

/-- Two readings of a script are the same apart from the types of columns. -/
structure Extraction.SameButTypes (x x' : Extraction) : Prop where
  errors     : x.errors = x'.errors
  unresolved : x.unresolved = x'.unresolved
  sequences  : x.catalog.sequences = x'.catalog.sequences
  enums      : x.catalog.enums = x'.catalog.enums
  tables     : List.Forall₂ Table.SameButTypes x.catalog.tables x'.catalog.tables

/-- The same is inferred in two schemas. -/
structure Schema.SameInferred (s s' : Schema) : Prop where
  kinds         : s.kinds = s'.kinds
  relationships : s.relationships = s'.relationships
  order         : s.order = s'.order
  cycles        : s.cycles = s'.cycles
  unresolved    : s.unresolved = s'.unresolved

/-- **Dialects.** A script that is read in two dialects has the same errors, unresolved references,
sequences and enumerations, and tables that are the same apart from the types of their columns; and
the same is inferred from it. -/
theorem dialect_decides_types (script : String) (d d' : Sql.Dialect) :
    (Extraction.ofScript script d).SameButTypes (.ofScript script d') ∧
    (Schema.infer (Extraction.ofScript script d).catalog).SameInferred
      (.infer (Extraction.ofScript script d').catalog) := by
  -- without their types the two extractions are the same, and inference asks for no type
  have hread := Extraction.ofScript_untyped script d d'
  have hcatalog : (Extraction.ofScript script d).catalog.untyped =
      (Extraction.ofScript script d').catalog.untyped := congrArg (·.catalog) hread
  have hinferred : (Schema.infer (Extraction.ofScript script d).catalog).untyped =
      (Schema.infer (Extraction.ofScript script d').catalog).untyped := by
    rw [← Schema.infer_untyped, hcatalog, Schema.infer_untyped]
  constructor
  · exact {
      errors := congrArg (·.errors) hread
      unresolved := congrArg (·.unresolved) hread
      sequences := congrArg (·.sequences) hcatalog
      enums := congrArg (·.enums) hcatalog
      tables := Catalog.forall₂_of_untyped_eq hcatalog }
  · exact {
      kinds := congrArg (·.kinds) hinferred
      relationships := congrArg (·.relationships) hinferred
      order := congrArg (·.order) hinferred
      cycles := congrArg (·.cycles) hinferred
      unresolved := congrArg (·.unresolved) hinferred }

end CrudGen
