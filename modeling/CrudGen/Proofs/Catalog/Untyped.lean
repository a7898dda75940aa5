import Mathlib.Data.List.Forall2
import CrudGen.Catalog.Build

/-!
# Catalogs without types

What a table says apart from the types of its columns. To leave the types out and to look something
up, or to change the table, can be done in any order.

Main results:

* `Table.untyped_eq_iff` — tables that are the same without types differ in types only.
* `Table.column?_untyped`, `Table.declaredColumns_untyped`, `Catalog.table?_untyped` — names are
  looked up in the same way.
* `Catalog.modifyTable_untyped` — changes that look at no types are the same.
-/

namespace CrudGen

open Text (sameName)

/-- A column with a fixed type in place of its own. -/
def Column.untyped (c : Column) : Column :=
  { c with dataType := .text }

/-- A table whose columns have no types of their own. -/
def Table.untyped (t : Table) : Table :=
  { t with columns := t.columns.map Column.untyped }

/-- Two columns may have different types and are the same apart from that. -/
def Column.SameButType (c c' : Column) : Prop :=
  c' = { c with dataType := c'.dataType }

/-- Two tables are the same apart from the types of their columns. -/
structure Table.SameButTypes (t t' : Table) : Prop where
  columns : List.Forall₂ Column.SameButType t.columns t'.columns
  others  : t' = { t with columns := t'.columns }

/-- A catalog whose columns have no types of their own. -/
def Catalog.untyped (c : Catalog) : Catalog :=
  { c with tables := c.tables.map Table.untyped }

/-- Columns look the same without their types if they are the same but for them. -/
theorem Column.untyped_eq_iff {c c' : Column} : c.untyped = c'.untyped ↔ c.SameButType c' := by
  constructor
  · intro h
    have hback : c' = { c'.untyped with dataType := c'.dataType } := rfl
    rw [SameButType, hback, ← h]
    rfl
  · intro h
    rw [h]
    rfl

/-- Elements look the same one by one if their lists do. -/
theorem map_eq_map_iff_forall₂ {α β : Type} {f : α → β} {xs ys : List α} :
    xs.map f = ys.map f ↔ List.Forall₂ (fun x y => f x = f y) xs ys := by
  rw [← List.forall₂_eq_eq_eq, List.forall₂_map_left_iff, List.forall₂_map_right_iff]

/-- Tables look the same without types if they are the same but for them. -/
theorem Table.untyped_eq_iff {t t' : Table} : t.untyped = t'.untyped ↔ t.SameButTypes t' := by
  have hcolumns : t.columns.map Column.untyped = t'.columns.map Column.untyped ↔
      List.Forall₂ Column.SameButType t.columns t'.columns := by
    rw [map_eq_map_iff_forall₂]
    simp only [Column.untyped_eq_iff]
  constructor
  · intro h
    refine ⟨hcolumns.1 (congrArg (·.columns) h), ?_⟩
    have hback : t' = { t'.untyped with columns := t'.columns } := rfl
    exact hback.trans (congrArg (fun t => { t with columns := t'.columns }) h.symm)
  · intro h
    rw [h.others, untyped, untyped, hcolumns.2 h.columns]

/-- Catalogs of the same tables apart from types have tables that are so one by one. -/
theorem Catalog.forall₂_of_untyped_eq {c c' : Catalog} (h : c.untyped = c'.untyped) :
    List.Forall₂ Table.SameButTypes c.tables c'.tables := by
  have htables := map_eq_map_iff_forall₂.1 (congrArg (·.tables) h : c.tables.map Table.untyped = _)
  simpa only [Table.untyped_eq_iff] using htables

-- ---------------------------------------------------------------------------
-- Tables
-- ---------------------------------------------------------------------------

namespace Table

/-- A column is found without its type as it is with it. -/
theorem column?_untyped (t : Table) (name : String) :
    t.untyped.column? name = (t.column? name).map Column.untyped :=
  List.find?_map

/-- A table has the same columns without types. -/
theorem hasColumn_untyped (t : Table) (name : String) :
    t.untyped.hasColumn name = t.hasColumn name := by
  rw [hasColumn, column?_untyped, Option.isSome_map, hasColumn]

/-- Columns are declared in the same spelling without types. -/
theorem declaredColumns_untyped (t : Table) (columns : List String) :
    t.untyped.declaredColumns columns = t.declaredColumns columns := by
  induction columns with
  | nil => rfl
  | cons name rest ih =>
    rw [declaredColumns, declaredColumns, column?_untyped, ih]
    cases t.column? name <;> rfl

/-- Columns may be asked for without types. -/
theorem requireColumns_untyped (t : Table) (columns : List String) (context : String) :
    t.untyped.requireColumns columns context = t.requireColumns columns context := by
  rw [requireColumns, declaredColumns_untyped, requireColumns]

end Table

/-- Primary keys are marked in the same way. -/
theorem Table.markPrimaryKey_untyped (t : Table) :
    Sql.Parser.markPrimaryKey t.untyped = (Sql.Parser.markPrimaryKey t).untyped := by
  rw [Sql.Parser.markPrimaryKey, untyped, List.map_map, Sql.Parser.markPrimaryKey, untyped,
    List.map_map]
  refine congrArg (fun columns => { t with columns }) (List.map_congr_left fun c _ => ?_)
  exact (apply_ite Column.untyped (t.primaryKey.contains c.name = true)
    { c with primaryKey := true, nullable := false } c).symm

-- ---------------------------------------------------------------------------
-- Catalogs
-- ---------------------------------------------------------------------------

/-- A change of one element looks like a change of how that element looks. -/
theorem modifyFirst_view {α β : Type} {f : α → β} {p : α → Bool} {q : β → Bool} {change : α → α}
    {change' : β → β} (hp : ∀ a, q (f a) = p a) (hchange : ∀ a, f (change a) = change' (f a))
    (xs : List α) : (modifyFirst p change xs).map f = modifyFirst q change' (xs.map f) := by
  induction xs with
  | nil => rfl
  | cons a rest ih =>
    rw [List.map_cons, modifyFirst, modifyFirst, hp, ← ih, ← hchange]
    split <;> rfl

namespace Catalog

/-- A table is found without types as it is with them. -/
theorem table?_untyped (c : Catalog) (name : String) :
    c.untyped.table? name = (c.table? name).map Table.untyped :=
  List.find?_map

/-- A change of a table looks like a change of the table without types. -/
theorem modifyTable_untyped (c : Catalog) (name : String) (f f' : Table → Table)
    (hf : ∀ t, (f t).untyped = f' t.untyped) :
    (c.modifyTable name f).untyped = c.untyped.modifyTable name f' :=
  congrArg (fun tables => { c with tables })
    (modifyFirst_view (q := fun t : Table => sameName t.name name) (fun _ => rfl) hf c.tables)

/-- Enumerations have no types of columns. -/
theorem addEnum_untyped (c : Catalog) (e : EnumType) :
    (c.addEnum e).untyped = c.untyped.addEnum e :=
  apply_ite untyped _ _ _

/-- Sequences have none either. -/
theorem addSequence_untyped (c : Catalog) (s : Sequence) :
    (c.addSequence s).untyped = c.untyped.addSequence s :=
  apply_ite untyped _ _ _

/-- The enumerations of columns are but types. -/
theorem withEnumColumns_untyped (c : Catalog) : c.withEnumColumns.untyped = c.untyped := by
  rw [untyped, withEnumColumns]
  refine congrArg (fun tables => { c with tables }) ?_
  rw [List.map_map]
  refine List.map_congr_left fun t _ => congrArg (fun columns => { t with columns }) ?_
  exact List.map_map

end Catalog

end CrudGen
