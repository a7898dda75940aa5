import Mathlib.Data.Finset.Dedup
import Mathlib.Data.List.Perm.Subperm
import CrudGen.Proofs.Schema.Endpoints

/-!
# Schemas — one-to-one relationships

A foreign key makes a one-to-one relationship if its columns are declared unique. What a table
declares unique are lists of columns, its `uniqueSources`. Lists are compared by their lengths and
by one inclusion. As long as no list repeats a column, this tells whether two lists are one set. A
source that repeats a column can be as long as a list that it is only a part of.

Main results:

* `isUniqueSet_iff` — what is compared, in every well-formed table.
* `isUniqueSet_iff_of_unrepeated` — without repetitions, sets of columns are compared.
* `oneToOne_exact` — so it is in the schema of a script, for lists of columns and for foreign keys.
* `oneToOne_of_part` — a unique index that repeats a column makes a foreign key one-to-one.
-/

namespace CrudGen

open Sql (Dialect)

-- ---------------------------------------------------------------------------
-- What is declared unique
-- ---------------------------------------------------------------------------

namespace Table

/-- The lists of columns that are declared unique: single columns by their own clauses, the primary
key if there is one, the columns of constraints, and those of unique indexes. -/
def uniqueSources (t : Table) : List (List String) :=
  (t.columns.filter (·.unique)).map (fun c => [c.name])
    ++ (if t.primaryKey = [] then [] else [t.primaryKey])
    ++ t.uniques.map (·.columns)
    ++ (t.indexes.filter (·.unique)).map (·.columns)

/-- Whether columns are one column with a clause of its own. -/
def isFlagged (t : Table) (columns : List String) : Bool :=
  match columns with
  | [single] => (t.column? single).any (·.unique)
  | _ => false

/-- Neither the columns nor any source among them repeat a column. -/
structure Unrepeated (t : Table) (columns : List String) : Prop where
  asked  : columns.Nodup
  listed : ∀ source ∈ t.uniqueSources, source ⊆ columns → source.Nodup

end Table

/-- A list has as many names as another one, and only names of it. -/
def Fits (source columns : List String) : Prop :=
  source.length = columns.length ∧ source ⊆ columns

theorem fits_iff {source columns : List String} :
    (source.length == columns.length && source.all columns.contains) = true ↔
      Fits source columns := by
  simp [Fits, List.subset_def]

theorem fits_singleton_iff {name : String} {columns : List String} :
    Fits [name] columns ↔ columns = [name] := by
  constructor
  · rintro ⟨hlength, hsubset⟩
    obtain ⟨single, rfl⟩ := List.length_eq_one_iff.1 hlength.symm
    rw [List.mem_singleton.1 (hsubset List.mem_cons_self)]
  · rintro rfl
    exact ⟨rfl, List.Subset.refl _⟩

/-- Without repetitions, a list fits another one exactly if both are one set. -/
theorem fits_iff_toFinset_eq {source columns : List String} (hsource : source.Nodup)
    (hcolumns : columns.Nodup) : Fits source columns ↔ source.toFinset = columns.toFinset := by
  constructor
  · rintro ⟨hlength, hsubset⟩
    have hperm : source.Perm columns :=
      (hsource.subperm hsubset).perm_of_length_le hlength.ge
    exact List.toFinset_eq_of_perm _ _ hperm
  · intro hset
    have hperm : source.Perm columns :=
      (List.perm_ext_iff_of_nodup hsource hcolumns).2 fun name => by
        rw [← List.mem_toFinset, hset, List.mem_toFinset]
    exact ⟨hperm.length_eq, hperm.subset⟩

-- ---------------------------------------------------------------------------
-- Unique sets
-- ---------------------------------------------------------------------------

variable {t : Table} {columns : List String}

/-- Under its own name, a column is found. -/
theorem column?_of_mem (h : DistinctNames t.columnNames) {c : Column} (hc : c ∈ t.columns) :
    t.column? c.name = some c := by
  have hnodup := distinctNames_iff.1 h
  rw [Table.columnNames, List.map_map] at hnodup
  exact find?_key hnodup hc

theorem isFlagged_iff (h : DistinctNames t.columnNames)
    (hcolumns : ∀ c ∈ columns, c ∈ t.columnNames) :
    t.isFlagged columns = true ↔ ∃ c ∈ t.columns, c.unique = true ∧ Fits [c.name] columns := by
  simp only [fits_singleton_iff]
  cases columns with
  | nil => simp [Table.isFlagged]
  | cons single rest =>
    cases rest with
    | cons next more => simp [Table.isFlagged]
    | nil =>
      obtain ⟨c, hc, rfl⟩ := List.mem_map.1 (hcolumns single List.mem_cons_self)
      rw [Table.isFlagged, column?_of_mem h hc, Option.any_some]
      constructor
      · exact fun hunique => ⟨c, hc, hunique, rfl⟩
      · rintro ⟨d, hd, hunique, hname⟩
        have hfound := column?_of_mem h hd
        rw [← List.singleton_inj.1 hname, column?_of_mem h hc] at hfound
        exact Option.some_inj.1 hfound ▸ hunique

theorem exists_uniqueSources_iff {P : List String → Prop} :
    (∃ source ∈ t.uniqueSources, P source) ↔
      (((∃ c ∈ t.columns, c.unique = true ∧ P [c.name]) ∨
        (t.primaryKey ≠ [] ∧ P t.primaryKey)) ∨
        ∃ u ∈ t.uniques, P u.columns) ∨
        ∃ i ∈ t.indexes, i.unique = true ∧ P i.columns := by
  -- the sources one after the other: the key, flagged columns, indexes, constraints
  have hkey : (∃ source ∈ if t.primaryKey = [] then [] else [t.primaryKey], P source) ↔
      t.primaryKey ≠ [] ∧ P t.primaryKey := by
    split <;> simp_all
  have hflags : (∃ source ∈ (t.columns.filter (·.unique)).map (fun c => [c.name]), P source) ↔
      ∃ c ∈ t.columns, c.unique = true ∧ P [c.name] := by
    simp [and_assoc]
  have hindexes : (∃ source ∈ (t.indexes.filter (·.unique)).map (·.columns), P source) ↔
      ∃ i ∈ t.indexes, i.unique = true ∧ P i.columns := by
    simp [and_assoc]
  have huniques : (∃ source ∈ t.uniques.map (·.columns), P source) ↔
      ∃ u ∈ t.uniques, P u.columns := by
    simp
  simp only [Table.uniqueSources, List.mem_append, or_and_right, exists_or, hkey, hflags, hindexes,
    huniques]

/-- Columns are a unique set exactly if a source fits them. -/
theorem isUniqueSet_iff (h : t.WellFormed) (hcolumns : ∀ c ∈ columns, c ∈ t.columnNames) :
    t.isUniqueSet columns = true ↔ ∃ source ∈ t.uniqueSources, Fits source columns := by
  have hkey : (!t.primaryKey.isEmpty &&
      (t.primaryKey.length == columns.length && t.primaryKey.all columns.contains)) = true ↔
      t.primaryKey ≠ [] ∧ Fits t.primaryKey columns := by
    rw [Bool.and_eq_true, fits_iff]
    simp
  have huniques : (t.uniques.any fun u =>
      u.columns.length == columns.length && u.columns.all columns.contains) = true ↔
      ∃ u ∈ t.uniques, Fits u.columns columns := by
    simp only [List.any_eq_true, fits_iff]
  have hindexes : (t.indexes.any fun i => i.unique &&
      (i.columns.length == columns.length && i.columns.all columns.contains)) = true ↔
      ∃ i ∈ t.indexes, i.unique = true ∧ Fits i.columns columns := by
    simp only [List.any_eq_true, Bool.and_eq_true_iff (x := Index.unique _), fits_iff]
  rw [exists_uniqueSources_iff, ← isFlagged_iff h.distinct hcolumns, ← hkey, ← huniques, ← hindexes,
    ← Bool.or_eq_true, ← Bool.or_eq_true, ← Bool.or_eq_true]
  rfl

/-- Where no column is repeated, columns are a unique set exactly if they are the set of a source.
-/
theorem isUniqueSet_iff_of_unrepeated (h : t.WellFormed)
    (hcolumns : ∀ c ∈ columns, c ∈ t.columnNames) (honce : t.Unrepeated columns) :
    t.isUniqueSet columns = true ↔
      ∃ source ∈ t.uniqueSources, source.toFinset = columns.toFinset := by
  rw [isUniqueSet_iff h hcolumns]
  constructor
  · rintro ⟨source, hsource, hfits⟩
    have hnodup := honce.listed source hsource hfits.2
    exact ⟨source, hsource, (fits_iff_toFinset_eq hnodup honce.asked).1 hfits⟩
  · rintro ⟨source, hsource, hset⟩
    have hsubset : source ⊆ columns := fun name hname => by
      rw [← List.mem_toFinset, ← hset, List.mem_toFinset]
      exact hname
    have hnodup := honce.listed source hsource hsubset
    exact ⟨source, hsource, (fits_iff_toFinset_eq hnodup honce.asked).2 hset⟩

-- ---------------------------------------------------------------------------
-- Foreign keys
-- ---------------------------------------------------------------------------

/-- A relationship stands for a foreign key of a table. -/
structure Relationship.StandsFor (r : Relationship) (t : Table) : Prop where
  owner : r.owner = t.name
  key   : ∃ fk ∈ t.foreignKeys, r.target = fk.targetTable ∧ r.columns = fk.columns ∧
            r.targetColumns = fk.targetColumns
  kind  : r.kind = if t.isUniqueSet r.columns then .oneToOne else .manyToOne

/-- The relationship of a foreign key is one-to-one exactly if its columns are a unique set. -/
theorem Relationship.StandsFor.oneToOne_iff {r : Relationship} (h : r.StandsFor t) :
    r.kind = .oneToOne ↔ t.isUniqueSet r.columns = true := by
  rw [h.kind]
  split <;> simp_all

/-- A relationship without a junction stands for a foreign key of its owner. -/
theorem exists_standsFor {c : Catalog} (h : c.Referential) {r : Relationship}
    (hr : r ∈ (Schema.infer c).relationships) (hvia : r.via = none) :
    ∃ t ∈ c.tables, r.StandsFor t := by
  obtain ⟨t, ht, -, fk, hfk, -, rfl⟩ := (mem_relationships_of_key_iff h).1 ⟨hr, hvia⟩
  exact ⟨t, ht, rfl, ⟨fk, hfk, rfl, rfl, rfl⟩, rfl⟩

/-- **One to one.** In the schema of a script, declared columns of a table are a unique set exactly
if the table declares as many of them unique together; where no column is repeated, exactly if they
are the same set as one that is declared unique. Every relationship without a junction stands for a
foreign key, and is one-to-one exactly if this holds of the columns of the key, and many-to-one
otherwise. -/
theorem oneToOne_exact (script : String) (dialect : Dialect) :
    let s := Schema.infer (Extraction.ofScript script dialect).catalog
    (∀ t ∈ s.tables, ∀ columns : List String, (∀ c ∈ columns, c ∈ t.columnNames) →
      (t.isUniqueSet columns = true ↔
        ∃ source ∈ t.uniqueSources, source.length = columns.length ∧ source ⊆ columns) ∧
      (t.Unrepeated columns → (t.isUniqueSet columns = true ↔
        ∃ source ∈ t.uniqueSources, source.toFinset = columns.toFinset))) ∧
    ∀ r ∈ s.relationships, r.via = none → ∃ t ∈ s.tables, r.StandsFor t ∧
      (r.kind = .oneToOne ↔
        ∃ source ∈ t.uniqueSources, source.length = r.columns.length ∧ source ⊆ r.columns) ∧
      (t.Unrepeated r.columns → (r.kind = .oneToOne ↔
        ∃ source ∈ t.uniqueSources, source.toFinset = r.columns.toFinset)) := by
  intro s
  have h : (Extraction.ofScript script dialect).catalog.Referential :=
    referential_ofStatements (dialect.resolve script) (originsOf script)
  refine ⟨fun t ht columns hcolumns => ?_, fun r hr hvia => ?_⟩
  · exact ⟨isUniqueSet_iff (h.wellFormed t ht) hcolumns,
      isUniqueSet_iff_of_unrepeated (h.wellFormed t ht) hcolumns⟩
  · obtain ⟨t, ht, hstands⟩ := exists_standsFor h hr hvia
    -- the columns of a foreign key are declared in its table
    have hcolumns : ∀ c ∈ r.columns, c ∈ t.columnNames := by
      obtain ⟨fk, hfk, -, heq, -⟩ := hstands.key
      rw [heq]
      exact (h.wellFormed t ht).foreignKeys fk hfk
    rw [hstands.oneToOne_iff]
    exact ⟨t, ht, hstands, isUniqueSet_iff (h.wellFormed t ht) hcolumns,
      isUniqueSet_iff_of_unrepeated (h.wellFormed t ht) hcolumns⟩

/-- A foreign key over columns that a constraint lists the other way round. -/
private def swappedScript : String :=
  "CREATE TABLE p (x INT, y INT, PRIMARY KEY (x, y)); " ++
    "CREATE TABLE t (a INT, b INT, FOREIGN KEY (a, b) REFERENCES p, UNIQUE (b, a))"

private abbrev swapped : Schema :=
  .infer (Extraction.ofScript swappedScript .generic).catalog

/-- Columns are a set, in whatever order they stand, and a part of it is not unique. -/
theorem oneToOne_exact_of_swapped :
    ∃ r ∈ swapped.relationships, r.via = none ∧ r.kind = .oneToOne ∧
      ∃ t ∈ swapped.tables, r.StandsFor t ∧ t.Unrepeated r.columns ∧
        (∀ c ∈ ["b"], c ∈ t.columnNames) ∧ t.isUniqueSet ["b"] = false := by
  have hchars : swappedScript.toList = _ :=
    toList_append_of String.toList_ofList String.toList_ofList
  have hread := Extraction.ofScript_of_toList hchars .generic
  -- only what the schema says of `t` is computed
  have hrelated : ∃ r ∈ swapped.relationships, r.via = none ∧ r.owner = "t" ∧
      r.columns = ["a", "b"] := by
    rw [swapped, hread]
    decide +kernel
  have hsources : ∀ t ∈ swapped.tables, t.name = "t" →
      t.uniqueSources = [["b", "a"]] ∧ t.columnNames = ["a", "b"] := by
    rw [swapped, hread]
    decide +kernel
  obtain ⟨hsets, hkeys⟩ := oneToOne_exact swappedScript .generic
  obtain ⟨r, hr, hvia, howner, hcolumns⟩ := hrelated
  obtain ⟨t, ht, hstands, -, hset⟩ := hkeys r hr hvia
  obtain ⟨hlisted, hnames⟩ := hsources t ht (hstands.owner.symm.trans howner)
  -- the constraint names `b` before `a`, and each of them once
  have honce : t.Unrepeated r.columns := by
    refine ⟨hcolumns ▸ by decide, fun source hsource _ => ?_⟩
    rw [hlisted, List.mem_singleton] at hsource
    exact hsource ▸ by decide
  have hkind : r.kind = .oneToOne :=
    (hset honce).2 ⟨["b", "a"], by rw [hlisted]; exact List.mem_cons_self, hcolumns ▸ by decide⟩
  have hb : ∀ c ∈ ["b"], c ∈ t.columnNames := by
    rw [hnames]
    decide
  refine ⟨r, hr, hvia, hkind, t, ht, hstands, honce, hb, ?_⟩
  rw [Bool.eq_false_iff, ne_eq, (hsets t ht ["b"] hb).1, hlisted]
  decide

/-- An index that repeats a column is taken for one over both columns of a foreign key. -/
theorem oneToOne_of_part :
    ¬ ∀ (script : String) (dialect : Dialect),
      let s := Schema.infer (Extraction.ofScript script dialect).catalog
      (∀ t ∈ s.tables, ∀ columns : List String, columns ≠ [] →
        (∀ c ∈ columns, c ∈ t.columnNames) → (t.isUniqueSet columns = true ↔
          ∃ source ∈ t.uniqueSources, source.toFinset = columns.toFinset)) ∧
      ∀ r ∈ s.relationships, r.via = none → ∀ t ∈ s.tables, r.owner = t.name →
        (r.kind = .oneToOne ↔
          ∃ source ∈ t.uniqueSources, source.toFinset = r.columns.toFinset) := by
  intro h
  -- the columns of `u` are a part of the foreign key, and as many when counted with repetitions
  obtain ⟨-, hscript⟩ := h ("CREATE TABLE p (x INT, y INT, PRIMARY KEY (x, y)); " ++
    "CREATE TABLE t (a INT, b INT, FOREIGN KEY (a, b) REFERENCES p); " ++
    "CREATE UNIQUE INDEX u ON t (a, a)") .generic
  rw [Extraction.ofScript_of_toList (toList_append_of
    (toList_append_of String.toList_ofList String.toList_ofList) String.toList_ofList)] at hscript
  revert hscript
  decide +kernel

end CrudGen
