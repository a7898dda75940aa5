import Mathlib.Data.List.Forall2
import Mathlib.Data.List.Nodup
import CrudGen.Catalog.Build

/-!
# Tables — declared names

Constraints name columns of their table in the declared spelling. `Table.WellFormed` says so of a
whole table, and `Table.Drafted` also of the references that still wait for their targets. Whatever
a statement adds to a table, it stays drafted.
-/

namespace CrudGen

open Text (sameName)
open Sql (PendingForeignKey)

-- ---------------------------------------------------------------------------
-- Names
-- ---------------------------------------------------------------------------

/-- A name is the same as itself. -/
theorem sameName_self (name : String) : sameName name name = true := by
  simp [sameName]

/-- Names that are the same as a third one are the same. -/
theorem sameName_trans {a b c : String} (h : sameName a b = true) (h' : sameName b c = true) :
    sameName a c = true := by
  simp only [sameName, beq_iff_eq] at *
  exact h.trans h'

/-- Names that agree one by one when the case of ASCII letters does not count. -/
def SameNames (names others : List String) : Prop :=
  List.Forall₂ (fun a b => sameName a b = true) names others

theorem SameNames.refl (names : List String) : SameNames names names :=
  List.forall₂_same.2 fun name _ => sameName_self name

theorem SameNames.trans {as bs cs : List String} (h : SameNames as bs) (h' : SameNames bs cs) :
    SameNames as cs := by
  induction h generalizing cs with
  | nil => exact h'
  | cons hab _ ih =>
    obtain ⟨c, rest, hbc, hrest, rfl⟩ := List.forall₂_cons_left_iff.1 h'
    exact .cons (sameName_trans hab hbc) (ih hrest)

/-- No two of the names agree when the case of ASCII letters does not count. -/
def DistinctNames (names : List String) : Prop :=
  names.Pairwise fun a b => sameName a b = false

/-- Distinct names stay so with one more that is none of them. -/
theorem DistinctNames.concat {names : List String} {name : String} (h : DistinctNames names)
    (hnew : ∀ other ∈ names, sameName other name = false) : DistinctNames (names ++ [name]) := by
  refine List.pairwise_append.2 ⟨h, List.pairwise_singleton _ _, fun a ha b hb => ?_⟩
  rw [List.mem_singleton.1 hb]
  exact hnew a ha

/-- Names differ when their keys do. -/
theorem distinctNames_iff {names : List String} :
    DistinctNames names ↔ (names.map Text.foldAscii).Nodup := by
  rw [List.Nodup, List.pairwise_map]
  simp only [DistinctNames, sameName, beq_eq_false_iff_ne]

/-- Distinct names stay so in every order. -/
theorem DistinctNames.perm {names others : List String} (h : DistinctNames names)
    (hperm : names.Perm others) : DistinctNames others :=
  distinctNames_iff.2 ((hperm.map _).nodup (distinctNames_iff.1 h))

/-- Names that are distinct in any case are distinct. -/
theorem DistinctNames.nodup {names : List String} (h : DistinctNames names) : names.Nodup :=
  List.Nodup.of_map _ (distinctNames_iff.1 h)

-- ---------------------------------------------------------------------------
-- Columns
-- ---------------------------------------------------------------------------

/-- The name of a column and its type, as it was written and as it was read. -/
def Column.signature (c : Column) : String × String × SqlType :=
  (c.name, c.declaredType, c.dataType)

namespace Table

/-- The names of the columns, as declared. -/
def columnNames (t : Table) : List String :=
  t.columns.map (·.name)

variable {t : Table}

/-- Columns with the same names are the columns of the same table. -/
theorem columnNames_eq {columns : List Column} (h : columns.map (·.name) = t.columnNames) :
    ({ t with columns } : Table).columnNames = t.columnNames :=
  h

/-- A column that is found is one of the table, and has the name in some case. -/
theorem column?_eq_some {name : String} {c : Column} (h : t.column? name = some c) :
    c.name ∈ t.columnNames ∧ sameName c.name name = true :=
  ⟨List.mem_map_of_mem (List.mem_of_find?_eq_some h),
    List.find?_some (p := fun c : Column => sameName c.name name) h⟩

/-- A table has no column of a name if none has the name in some case. -/
theorem hasColumn_eq_false_iff {name : String} :
    t.hasColumn name = false ↔ ∀ c ∈ t.columnNames, sameName c name = false := by
  simp [hasColumn, column?, columnNames]

/-- What is looked up comes back in the spelling of the declaration. -/
theorem declaredColumns_eq_ok {names found : List String}
    (h : t.declaredColumns names = .ok found) :
    (∀ c ∈ found, c ∈ t.columnNames) ∧ SameNames found names := by
  rw [SameNames, ← List.forall₂_and_left]
  -- induction on the names that are asked for: the first is found, then the others
  induction names generalizing found with
  | nil =>
    cases h
    exact .nil
  | cons name rest ih =>
    rw [declaredColumns] at h
    split at h
    · cases h
    · rename_i c hc
      cases hrest : t.declaredColumns rest with
      | error e =>
        rw [hrest] at h
        cases h
      | ok more =>
        rw [hrest] at h
        cases h
        exact .cons (column?_eq_some hc) (ih hrest)

-- ---------------------------------------------------------------------------
-- Well-formed tables
-- ---------------------------------------------------------------------------

/-- A table with columns that differ in name, whose constraints name its columns as declared. -/
structure WellFormed (t : Table) : Prop where
  columns     : t.columns ≠ []
  distinct    : DistinctNames t.columnNames
  primaryKey  : ∀ c ∈ t.primaryKey, c ∈ t.columnNames
  uniques     : ∀ u ∈ t.uniques, ∀ c ∈ u.columns, c ∈ t.columnNames
  indexes     : ∀ i ∈ t.indexes, ∀ c ∈ i.columns, c ∈ t.columnNames
  foreignKeys : ∀ fk ∈ t.foreignKeys, ∀ c ∈ fk.columns, c ∈ t.columnNames

/-- Columns may change in anything but their names. -/
theorem WellFormed.setColumns (h : t.WellFormed) {columns : List Column}
    (hnames : columns.map (·.name) = t.columnNames) : ({ t with columns } : Table).WellFormed := by
  -- the names are the same, so there is a column as before and every constraint still fits
  have hcolumns : columns ≠ [] := by
    rintro rfl
    exact h.columns (List.map_eq_nil_iff.1 hnames.symm)
  refine ⟨hcolumns, ?_, ?_, ?_, ?_, ?_⟩ <;> rw [columnNames_eq hnames]
  · exact h.distinct
  · exact h.primaryKey
  · exact h.uniques
  · exact h.indexes
  · exact h.foreignKeys

/-- A column may be added if its name is new. -/
theorem WellFormed.addColumn (h : t.WellFormed) {c : Column} (hnew : t.hasColumn c.name = false) :
    ({ t with columns := t.columns ++ [c] } : Table).WellFormed := by
  have hnames : ({ t with columns := t.columns ++ [c] } : Table).columnNames =
      t.columnNames ++ [c.name] := List.map_append
  have hmem {name : String} (hname : name ∈ t.columnNames) :
      name ∈ ({ t with columns := t.columns ++ [c] } : Table).columnNames := by
    rw [hnames]
    exact List.mem_append_left _ hname
  refine ⟨by simp, ?_, ?_, ?_, ?_, ?_⟩
  · rw [hnames]
    exact h.distinct.concat (hasColumn_eq_false_iff.1 hnew)
  · exact fun c hc => hmem (h.primaryKey c hc)
  · exact fun u hu c hc => hmem (h.uniques u hu c hc)
  · exact fun i hi c hc => hmem (h.indexes i hi c hc)
  · exact fun fk hfk c hc => hmem (h.foreignKeys fk hfk c hc)

/-- A primary key may be set if its columns are there. -/
theorem WellFormed.setPrimaryKey (h : t.WellFormed) {columns : List String}
    (hcolumns : ∀ c ∈ columns, c ∈ t.columnNames) :
    ({ t with primaryKey := columns } : Table).WellFormed :=
  { h with primaryKey := hcolumns }

/-- A unique constraint may be added if its columns are there. -/
theorem WellFormed.addUnique (h : t.WellFormed) {u : UniqueConstraint}
    (hu : ∀ c ∈ u.columns, c ∈ t.columnNames) :
    ({ t with uniques := t.uniques ++ [u] } : Table).WellFormed :=
  { h with uniques := List.forall_mem_append.2 ⟨h.uniques, List.forall_mem_singleton.2 hu⟩ }

/-- An index may be added if its columns are there. -/
theorem WellFormed.addIndex (h : t.WellFormed) {i : Index}
    (hi : ∀ c ∈ i.columns, c ∈ t.columnNames) :
    ({ t with indexes := t.indexes ++ [i] } : Table).WellFormed :=
  { h with indexes := List.forall_mem_append.2 ⟨h.indexes, List.forall_mem_singleton.2 hi⟩ }

/-- A foreign key may be added if its columns are there. -/
theorem WellFormed.addForeignKey (h : t.WellFormed) {fk : ForeignKey}
    (hfk : ∀ c ∈ fk.columns, c ∈ t.columnNames) :
    ({ t with foreignKeys := t.foreignKeys ++ [fk] } : Table).WellFormed :=
  { h with
    foreignKeys := List.forall_mem_append.2 ⟨h.foreignKeys, List.forall_mem_singleton.2 hfk⟩ }

end Table

-- ---------------------------------------------------------------------------
-- Tables with references that wait
-- ---------------------------------------------------------------------------

/-- A reference names columns of a table as declared. -/
def Sql.PendingForeignKey.StandsIn (fk : PendingForeignKey) (t : Table) : Prop :=
  ∀ c ∈ fk.columns, c ∈ t.columnNames

namespace Table

variable {t : Table} {fks : List PendingForeignKey}

/-- A well-formed table before any target is looked up, with the references that stand in it. -/
structure Drafted (t : Table) (fks : List PendingForeignKey) : Prop where
  wellFormed  : t.WellFormed
  foreignKeys : t.foreignKeys = []
  pending     : ∀ fk ∈ fks, fk.StandsIn t

/-- Columns may be changed if they keep their names. -/
theorem Drafted.setColumns (h : t.Drafted fks) {columns : List Column}
    (hnames : columns.map (·.name) = t.columnNames) :
    ({ t with columns } : Table).Drafted fks := by
  refine ⟨h.wellFormed.setColumns hnames, h.foreignKeys, fun fk hfk => ?_⟩
  rw [Sql.PendingForeignKey.StandsIn, columnNames_eq hnames]
  exact h.pending fk hfk

/-- A new column comes with at most one reference, which stands in that column. -/
theorem Drafted.addColumn (h : t.Drafted fks) {c : Column} {fk? : Option PendingForeignKey}
    (hnew : t.hasColumn c.name = false) (hfk : ∀ fk ∈ fk?, fk.columns = [c.name]) :
    ({ t with columns := t.columns ++ [c] } : Table).Drafted (fks ++ fk?.toList) := by
  have hnames : ({ t with columns := t.columns ++ [c] } : Table).columnNames =
      t.columnNames ++ [c.name] := List.map_append
  refine ⟨h.wellFormed.addColumn hnew, h.foreignKeys, fun fk hmem => ?_⟩
  rw [Sql.PendingForeignKey.StandsIn, hnames]
  -- an old reference stands in the old columns, the new one in the new column
  rcases List.mem_append.1 hmem with hold | hadded
  · exact fun c hc => List.mem_append_left _ (h.pending fk hold c hc)
  · rw [hfk fk (Option.mem_toList.1 hadded)]
    exact fun c hc => List.mem_append_right _ hc

/-- A reference may be added if it stands in the table. -/
theorem Drafted.addReference (h : t.Drafted fks) {fk : PendingForeignKey} (hfk : fk.StandsIn t) :
    t.Drafted (fks ++ [fk]) :=
  { h with pending := List.forall_mem_append.2 ⟨h.pending, List.forall_mem_singleton.2 hfk⟩ }

/-- A primary key may be set in a table that is being made. -/
theorem Drafted.setPrimaryKey (h : t.Drafted fks) {columns : List String}
    (hcolumns : ∀ c ∈ columns, c ∈ t.columnNames) :
    ({ t with primaryKey := columns } : Table).Drafted fks :=
  { h with wellFormed := h.wellFormed.setPrimaryKey hcolumns }

/-- A unique constraint may be added to it. -/
theorem Drafted.addUnique (h : t.Drafted fks) {u : UniqueConstraint}
    (hu : ∀ c ∈ u.columns, c ∈ t.columnNames) :
    ({ t with uniques := t.uniques ++ [u] } : Table).Drafted fks :=
  { h with wellFormed := h.wellFormed.addUnique hu }

/-- An index may be added to it. -/
theorem Drafted.addIndex (h : t.Drafted fks) {i : Index} (hi : ∀ c ∈ i.columns, c ∈ t.columnNames) :
    ({ t with indexes := t.indexes ++ [i] } : Table).Drafted fks :=
  { h with wellFormed := h.wellFormed.addIndex hi }

/-- Flags touch neither names nor types. -/
theorem signatures_markPrimaryKey :
    (Sql.Parser.markPrimaryKey t).columns.map (·.signature) = t.columns.map (·.signature) := by
  rw [Sql.Parser.markPrimaryKey, List.map_map]
  refine List.map_congr_left fun c _ => ?_
  simp only [Function.comp_apply]
  split <;> rfl

/-- Marking the primary key changes no name. -/
theorem columnNames_markPrimaryKey : (Sql.Parser.markPrimaryKey t).columnNames = t.columnNames := by
  have hnames := congrArg (List.map Prod.fst) (signatures_markPrimaryKey (t := t))
  rw [List.map_map, List.map_map] at hnames
  exact hnames

/-- A table that is sound stays so when its primary key is marked. -/
theorem Drafted.markPrimaryKey (h : t.Drafted fks) : (Sql.Parser.markPrimaryKey t).Drafted fks :=
  h.setColumns columnNames_markPrimaryKey

end Table

end CrudGen
