import CrudGen.Proofs.Catalog.Collected
import CrudGen.Proofs.Catalog.Notes

/-!
# Catalogs — tables that are made in two steps

A statement may create a table with a part of what it has, and a second statement add the rest. Up
to there, two drafts differ in that table and in some references of it (`Draft.Behind`). From there
on they differ in the order of entries only (`Draft.Rearranged`), and nothing that is looked up
depends on that order.

Main results:

* `Draft.Behind.catchUp` — the change that adds the rest makes up the difference.
* `Draft.Rearranged.close` — what differs in order at the end of the second pass does so when all
  references are followed.
* `rearranged_ofStatements` — a definition may be given in two steps.
-/

namespace CrudGen

open Text (sameName)
open Sql (AlterAction Dialect PendingForeignKey Statement TableChange TableDefinition Token)

-- ---------------------------------------------------------------------------
-- Tables
-- ---------------------------------------------------------------------------

/-- Tables that differ in the order of constraints and references only. -/
structure Table.Rearranged (t t' : Table) : Prop where
  name        : t.name = t'.name
  columns     : t.columns = t'.columns
  primaryKey  : t.primaryKey = t'.primaryKey
  uniques     : t.uniques.Perm t'.uniques
  indexes     : t.indexes.Perm t'.indexes
  foreignKeys : t.foreignKeys.Perm t'.foreignKeys

namespace Table

variable {t t' : Table}

/-- Whether there is a column depends on the names of columns only. -/
theorem hasColumn_congr (h : t.columnNames = t'.columnNames) : t.hasColumn = t'.hasColumn := by
  have hany (t : Table) (name : String) :
      t.hasColumn name = t.columnNames.any (sameName · name) := by
    rw [hasColumn, column?, List.isSome_find?, columnNames, List.any_map]
    rfl
  funext name
  rw [hany, hany, h]

/-- How columns are declared depends on their names only. -/
theorem declaredColumns_congr (h : t.columnNames = t'.columnNames) :
    t.declaredColumns = t'.declaredColumns := by
  have hfound (t : Table) (name : String) :
      (t.column? name).map (·.name) = t.columnNames.find? (sameName · name) := by
    rw [column?, columnNames, List.find?_map]
    rfl
  funext names
  induction names with
  | nil => rfl
  | cons name rest ih =>
    have hname := (hfound t name).trans (h ▸ (hfound t' name).symm)
    rw [declaredColumns, declaredColumns, ih]
    cases hc : t.column? name <;> cases hc' : t'.column? name <;> simp_all

end Table

namespace Table.Rearranged

variable {t t' : Table}

theorem refl (t : Table) : t.Rearranged t :=
  ⟨rfl, rfl, rfl, .refl _, .refl _, .refl _⟩

/-- Columns stand in one order in every arrangement. -/
theorem columnNames (h : t.Rearranged t') : t.columnNames = t'.columnNames :=
  congrArg (List.map Column.name) h.columns

/-- An arrangement has the same columns. -/
theorem hasColumn (h : t.Rearranged t') : t.hasColumn = t'.hasColumn :=
  hasColumn_congr h.columnNames

/-- The same columns may be asked for in every arrangement. -/
theorem requireColumns (h : t.Rearranged t') : t.requireColumns = t'.requireColumns := by
  funext columns context
  rw [Table.requireColumns, Table.requireColumns, declaredColumns_congr h.columnNames]

end Table.Rearranged

-- ---------------------------------------------------------------------------
-- Actions
-- ---------------------------------------------------------------------------

/-- Staged tables that differ in the order of constraints only. -/
structure Staged.Rearranged (s s' : Staged) : Prop where
  table       : s.table.Rearranged s'.table
  foreignKeys : s.foreignKeys = s'.foreignKeys
  enums       : s.enums = s'.enums

/-- An action fails for both or does the same to both. -/
theorem Staged.Rearranged.act {s s' : Staged} (h : s.Rearranged s') (a : AlterAction) :
    Parallel Staged.Rearranged (s.act a) (s'.act a) := by
  have ht := h.table
  cases a with
  | addColumn d =>
    simp only [Staged.act, ht.hasColumn]
    split
    -- whether the column is there is the same for both tables, and so is the error
    · exact .error _
    · exact .ok {
        table := { ht with columns := congrArg (· ++ [d.column]) ht.columns }
        foreignKeys := congrArg (· ++ d.foreignKey.toList) h.foreignKeys
        enums := congrArg (· ++ d.inlineEnum.toList) h.enums }
  | addForeignKey fk =>
    simp only [Staged.act, ht.requireColumns]
    exact .next fun columns => .ok { h with
      foreignKeys := congrArg (· ++ [{ fk with columns }]) h.foreignKeys }
  | addUnique u =>
    simp only [Staged.act, ht.requireColumns]
    exact .next fun columns => .ok { h with
      table := { ht with uniques := ht.uniques.append_right [{ u with columns }] } }
  | addPrimaryKey columns =>
    simp only [Staged.act, ht.requireColumns, ht.primaryKey]
    refine .next fun columns => ?_
    -- the key is refused if there is one already, in both tables
    split
    · rw [ht.name]
      exact .error _
    · refine .ok { h with table := { ht with columns := ?_, primaryKey := rfl } }
      simp only [Sql.Parser.markPrimaryKey, ht.columns]
  | addIndex i =>
    simp only [Staged.act, ht.requireColumns]
    exact .next fun columns => .ok { h with
      table := { ht with indexes := ht.indexes.append_right [{ i with columns }] } }
  | setDefault column expression =>
    simp only [Staged.act, ht.hasColumn]
    split
    · exact .error _
    · exact .ok { h with
        table := { ht with columns := congrArg (modifyFirst _ _) ht.columns } }

-- ---------------------------------------------------------------------------
-- Catalogs
-- ---------------------------------------------------------------------------

/-- Catalogs whose tables differ in the order of constraints and references only. -/
structure Catalog.Rearranged (c c' : Catalog) : Prop where
  tables    : List.Forall₂ Table.Rearranged c.tables c'.tables
  sequences : c.sequences = c'.sequences
  enums     : c.enums = c'.enums

/-- Elements that are related stay so when one of each list is changed, if both lists change the
same one. -/
theorem forall₂_modifyFirst {α β : Type} {R : α → β → Prop} {p : α → Bool} {q : β → Bool}
    {f : α → α} {g : β → β} {as : List α} {bs : List β} (h : List.Forall₂ R as bs)
    (hp : ∀ a b, R a b → p a = q b) (hf : ∀ a b, R a b → R (f a) (g b)) :
    List.Forall₂ R (modifyFirst p f as) (modifyFirst q g bs) := by
  induction h with
  | nil => exact .nil
  | cons hab hrest ih =>
    rw [modifyFirst, modifyFirst, hp _ _ hab]
    split
    · exact .cons (hf _ _ hab) hrest
    · exact .cons hab ih

/-- The first elements with a property are related, or neither list has any. -/
theorem forall₂_find? {α β : Type} {R : α → β → Prop} {p : α → Bool} {q : β → Bool} {as : List α}
    {bs : List β} (h : List.Forall₂ R as bs) (hp : ∀ a b, R a b → p a = q b) :
    Option.Rel R (as.find? p) (bs.find? q) := by
  induction h with
  | nil => exact .none
  | @cons a b _ _ hab _ ih =>
    rw [List.find?_cons, List.find?_cons, hp _ _ hab]
    cases q b with
    | true => exact .some hab
    | false => exact ih

namespace Catalog.Rearranged

variable {c c' : Catalog}

/-- Tables are found by the same names in every arrangement. -/
theorem table? (h : c.Rearranged c') (name : String) :
    Option.Rel Table.Rearranged (c.table? name) (c'.table? name) :=
  forall₂_find? h.tables fun _ _ ht => by rw [ht.name]

/-- A change of one table that respects arrangements makes arrangements of the catalog. -/
theorem modifyTable (h : c.Rearranged c') (name : String) {f f' : Table → Table}
    (hf : ∀ t t', t.Rearranged t' → (f t).Rearranged (f' t')) :
    (c.modifyTable name f).Rearranged (c'.modifyTable name f') :=
  { h with tables := forall₂_modifyFirst h.tables (fun _ _ ht => by rw [ht.name]) hf }

/-- An enumeration is added to every arrangement. -/
theorem addEnum (h : c.Rearranged c') (e : EnumType) :
    (c.addEnum e).Rearranged (c'.addEnum e) := by
  unfold Catalog.addEnum
  rw [h.enums]
  split
  · exact h
  · exact ⟨h.tables, h.sequences, rfl⟩

theorem addEnums (h : c.Rearranged c') (es : List EnumType) :
    (es.foldl Catalog.addEnum c).Rearranged (es.foldl Catalog.addEnum c') := by
  induction es generalizing c c' with
  | nil => exact h
  | cons e rest ih => exact ih (h.addEnum e)

/-- A change fails for both or does the same to both, and adds the same references. -/
theorem apply (h : c.Rearranged c') (change : TableChange) :
    Parallel (fun r r' => r.1.Rearranged r'.1 ∧ r.2 = r'.2) (TableChange.apply c change)
      (TableChange.apply c' change) := by
  cases change with
  | index table i? =>
    have htable := h.table? table
    unfold TableChange.apply
    dsimp only
    -- both catalogs have a table of this name, or neither has
    generalize c.table? table = t? at htable
    generalize c'.table? table = t?' at htable
    cases htable with
    | none => exact .error _
    | some ht =>
      cases i? with
      | none => exact .ok ⟨h, rfl⟩
      | some i =>
        dsimp only
        rw [ht.requireColumns]
        exact .next fun columns => .ok ⟨h.modifyTable table fun _ _ ht =>
          { ht with indexes := ht.indexes.append_right [{ i with columns }] }, rfl⟩
  | alter table actions =>
    have htable := h.table? table
    unfold TableChange.apply
    dsimp only
    generalize c.table? table = t? at htable
    generalize c'.table? table = t?' at htable
    cases htable with
    | none => exact .error _
    | some ht =>
      -- the actions start at arrangements of the table, with nothing else collected
      have hstart : Staged.Rearranged { table := _ } { table := _ } := ⟨ht, rfl, rfl⟩
      refine (Parallel.foldlM (fun _ _ a hs => hs.act a) actions hstart).bind
        fun s s' hs => .ok ⟨?_, ?_⟩
      · rw [hs.enums]
        exact (h.modifyTable table fun _ _ _ => hs.table).addEnums s'.enums
      · rw [hs.foreignKeys, hs.table.name]

/-- Columns become enumerations in every arrangement. -/
theorem withEnumColumns (h : c.Rearranged c') :
    c.withEnumColumns.Rearranged c'.withEnumColumns := by
  refine ⟨?_, h.sequences, h.enums⟩
  simp only [Catalog.withEnumColumns, h.enums]
  refine List.forall₂_map_left_iff.2 (List.forall₂_map_right_iff.2 (h.tables.imp fun _ _ ht => ?_))
  exact { ht with columns := by rw [ht.columns] }

/-- References are looked up alike. -/
theorem fateIn (h : c.Rearranged c') : CrudGen.fateIn c = CrudGen.fateIn c' := by
  funext ref
  have htarget := h.table? ref.2.targetTable
  unfold CrudGen.fateIn PendingForeignKey.resolve
  generalize c.table? ref.2.targetTable = t? at htarget
  generalize c'.table? ref.2.targetTable = t?' at htarget
  cases htarget with
  | none => rfl
  | some ht => simp only [ht.primaryKey, ht.name, Table.declaredColumns_congr ht.columnNames]

end Catalog.Rearranged

-- ---------------------------------------------------------------------------
-- Drafts
-- ---------------------------------------------------------------------------

/-- Extractions that differ in the order of constraints, references and reports only. -/
structure Extraction.Rearranged (x x' : Extraction) : Prop where
  catalog    : x.catalog.Rearranged x'.catalog
  errors     : x.errors = x'.errors
  unresolved : x.unresolved.Perm x'.unresolved

namespace Draft

/-- Drafts that differ in the order of constraints and references only. -/
structure Rearranged (d d' : Draft) : Prop where
  catalog : d.catalog.Rearranged d'.catalog
  errors  : d.errors = d'.errors
  pending : d.pending.Perm d'.pending

variable {d d' : Draft}

/-- A change is accepted in every arrangement or in none, with the same error. -/
theorem Rearranged.applyChange (h : d.Rearranged d') (o : Origin) (change : TableChange) :
    (d.applyChange o change).Rearranged (d'.applyChange o change) := by
  have happly := h.catalog.apply change
  unfold Draft.applyChange
  generalize TableChange.apply d.catalog change = r at happly
  generalize TableChange.apply d'.catalog change = r' at happly
  cases happly with
  | error m => exact ⟨h.catalog, congrArg (· ++ [o.error m.message]) h.errors, h.pending⟩
  | ok hr =>
    refine ⟨hr.1, h.errors, ?_⟩
    dsimp only
    rw [hr.2]
    exact h.pending.append_right _

theorem Rearranged.applyChanges (h : d.Rearranged d') (changes : List (Origin × TableChange)) :
    (d.applyChanges changes).Rearranged (d'.applyChanges changes) := by
  induction changes generalizing d d' with
  | nil => exact h
  | cons c rest ih => exact ih (h.applyChange c.1 c.2)

/-- Following references touches tables only. -/
theorem followAll_catalog (x : Extraction) (refs : List (String × PendingForeignKey)) :
    (followAll x refs).catalog = { x.catalog with tables := (followAll x refs).catalog.tables } := by
  induction refs generalizing x with
  | nil => rfl
  | cons ref rest ih =>
    have hfirst : (follow x ref.1 ref.2).catalog =
        { x.catalog with tables := (follow x ref.1 ref.2).catalog.tables } := by
      unfold follow
      split <;> rfl
    change (followAll (follow x ref.1 ref.2) rest).catalog =
      { x.catalog with tables := (followAll (follow x ref.1 ref.2) rest).catalog.tables }
    rw [ih, hfirst]

/-- Foreign keys are stored in the order of their references, which arrangements may change. -/
theorem forall₂_storing {tables tables' : List Table} {fates fates' : List Fate}
    (h : List.Forall₂ Table.Rearranged tables tables') (hfates : fates.Perm fates') :
    List.Forall₂ Table.Rearranged (storing tables fates) (storing tables' fates') := by
  refine List.forall₂_map_left_iff.2 (List.forall₂_map_right_iff.2 (h.imp fun t t' ht => ?_))
  refine { ht with foreignKeys := ht.foreignKeys.append ?_ }
  rw [ht.name]
  exact hfates.filterMap _

/-- Two arrangements of a draft that is sound are closed as arrangements. -/
theorem Rearranged.close (h : d.Rearranged d') (hd : d.Sound) (hd' : d'.Sound) :
    d.close.Rearranged d'.close := by
  obtain ⟨hready, hstands, -⟩ := hd.ready
  obtain ⟨hready', hstands', -⟩ := hd'.ready
  obtain ⟨hunresolved, htables⟩ := followAll_fates
    (x := { catalog := d.catalog.withEnumColumns, errors := d.errors }) hready hstands
  obtain ⟨hunresolved', htables'⟩ := followAll_fates
    (x := { catalog := d'.catalog.withEnumColumns, errors := d'.errors }) hready' hstands'
  -- the order of entries does not matter to the fate of a reference
  have hcatalog := h.catalog.withEnumColumns
  dsimp only at hunresolved htables hunresolved' htables'
  rw [← hcatalog.fateIn] at hunresolved' htables'
  have hfates := h.pending.map (fateIn d.catalog.withEnumColumns)
  refine ⟨?_, ?_, ?_⟩
  · unfold Draft.close
    rw [followAll_catalog, followAll_catalog _ d'.pending]
    refine ⟨?_, hcatalog.sequences, hcatalog.enums⟩
    dsimp only
    rw [htables, htables']
    exact forall₂_storing hcatalog.tables hfates
  · rw [close_errors, close_errors, h.errors]
  · unfold Draft.close
    rw [hunresolved, hunresolved']
    exact (hfates.filterMap _).append_left _

end Draft

-- ---------------------------------------------------------------------------
-- Drafts with a table that is not complete
-- ---------------------------------------------------------------------------

namespace Catalog

/-- Enumerations are added beside the tables. -/
theorem addEnum_setTables (c : Catalog) (tables : List Table) (e : EnumType) :
    ({ c with tables } : Catalog).addEnum e = { c.addEnum e with tables } := by
  unfold addEnum
  split <;> rfl

theorem addEnums_setTables (c : Catalog) (tables : List Table) (es : List EnumType) :
    es.foldl addEnum ({ c with tables } : Catalog) = { es.foldl addEnum c with tables } := by
  induction es generalizing c with
  | nil => rfl
  | cons e rest ih => rw [List.foldl_cons, addEnum_setTables, ih, List.foldl_cons]

/-- A sequence is added beside the tables. -/
theorem addSequence_setTables (c : Catalog) (tables : List Table) (s : Sequence) :
    ({ c with tables } : Catalog).addSequence s = { c.addSequence s with tables } := by
  unfold addSequence
  split <;> rfl

/-- A table is found if one of the names is its own in some case. -/
theorem isSome_table? (c : Catalog) (name : String) :
    (c.table? name).isSome = (c.tables.map (·.name)).any (sameName · name) := by
  rw [table?, List.isSome_find?, List.any_map]
  rfl

end Catalog

/-- The table that a change is about. -/
def Sql.TableChange.table : TableChange → String
  | .index table _ => table
  | .alter table _ => table

/-- A change that does not meet one element leaves it between what it makes of the others. -/
theorem modifyFirst_of_others {α : Type} {p : α → Bool} {a b : α} (ha : p a = false)
    (hb : p b = false) (f : α → α) (before after : List α) :
    ∃ before' after', modifyFirst p f (before ++ a :: after) = before' ++ a :: after' ∧
      modifyFirst p f (before ++ b :: after) = before' ++ b :: after' := by
  induction before with
  | nil => exact ⟨[], modifyFirst p f after, by simp [modifyFirst, ha], by simp [modifyFirst, hb]⟩
  | cons c rest ih =>
    obtain ⟨before', after', ha', hb'⟩ := ih
    cases hc : p c with
    | true => exact ⟨f c :: rest, after, by simp [modifyFirst, hc], by simp [modifyFirst, hc]⟩
    | false =>
      exact ⟨c :: before', after', by simp [modifyFirst, hc, ha'], by simp [modifyFirst, hc, hb']⟩

/-- Two catalogs are the same, but where one has the table `t` the other has `t'`. -/
def Catalog.Swaps (t t' : Table) (c c' : Catalog) : Prop :=
  ∃ before after, c.tables = before ++ t :: after ∧ c' = { c with tables := before ++ t' :: after }

namespace Catalog.Swaps

variable {t t' : Table} {c c' : Catalog}

/-- The catalog with the other table has tables of the same names. -/
theorem isSome_table? (h : Swaps t t' c c') (hname : t'.name = t.name) (name : String) :
    (c'.table? name).isSome = (c.table? name).isSome := by
  obtain ⟨before, after, htables, rfl⟩ := h
  rw [Catalog.isSome_table?, Catalog.isSome_table?, htables]
  simp [hname]

/-- Under any name but that of the table, both catalogs have the same table. -/
theorem table?_of_other (h : Swaps t t' c c') (hname : t'.name = t.name) {name : String}
    (hother : sameName t.name name = false) : c'.table? name = c.table? name := by
  obtain ⟨before, after, htables, rfl⟩ := h
  rw [table?, table?, htables]
  simp [List.find?_append, hname, hother]

/-- A change of another table is made in both catalogs. -/
theorem modifyTable (h : Swaps t t' c c') (hname : t'.name = t.name) {name : String}
    (hother : sameName t.name name = false) (f : Table → Table) :
    Swaps t t' (c.modifyTable name f) (c'.modifyTable name f) := by
  obtain ⟨before, after, htables, rfl⟩ := h
  obtain ⟨before', after', hmodified, hmodified'⟩ := modifyFirst_of_others
    (p := fun u : Table => sameName u.name name) (a := t) (b := t') hother
    (by rw [hname]; exact hother) f before after
  refine ⟨before', after', ?_, ?_⟩
  · rw [Catalog.modifyTable, htables]
    exact hmodified
  · rw [Catalog.modifyTable, Catalog.modifyTable]
    dsimp only
    rw [hmodified']

/-- Enumerations are added to both catalogs. -/
theorem addEnums (h : Swaps t t' c c') (es : List EnumType) :
    Swaps t t' (es.foldl addEnum c) (es.foldl addEnum c') := by
  obtain ⟨before, after, htables, rfl⟩ := h
  exact ⟨before, after, (tables_addEnums _ _).trans htables, addEnums_setTables _ _ _⟩

/-- A table is added to both catalogs. -/
theorem addTable (h : Swaps t t' c c') (u : Table) :
    Swaps t t' { c with tables := c.tables ++ [u] } { c' with tables := c'.tables ++ [u] } := by
  obtain ⟨before, after, htables, rfl⟩ := h
  exact ⟨before, after ++ [u], by simp [htables], by simp⟩

/-- A change of another table does the same to both. -/
theorem apply (h : Swaps t t' c c') (hname : t'.name = t.name) {change : TableChange}
    (hother : sameName t.name change.table = false) :
    Parallel (fun r r' => Swaps t t' r.1 r'.1 ∧ r.2 = r'.2) (TableChange.apply c change)
      (TableChange.apply c' change) := by
  have htable := h.table?_of_other hname hother
  cases change with
  | index table i? =>
    change c'.table? table = c.table? table at htable
    unfold TableChange.apply
    dsimp only
    rw [htable]
    cases c.table? table with
    | none => exact .error _
    | some u =>
      cases i? with
      | none => exact .ok ⟨h, rfl⟩
      | some i => exact .next fun columns => .ok ⟨h.modifyTable hname hother _, rfl⟩
  | alter table actions =>
    change c'.table? table = c.table? table at htable
    unfold TableChange.apply
    dsimp only
    -- the table that is changed is the same one in both catalogs
    rw [htable]
    cases c.table? table with
    | none => exact .error _
    | some u =>
      exact .next fun s => .ok ⟨(h.modifyTable hname hother _).addEnums s.enums, rfl⟩

end Catalog.Swaps

/-- Two drafts are the same, but where one has the table `t` the other has `t'`, and references are
missing in it. -/
structure Draft.Behind (t t' : Table) (missing : List (String × PendingForeignKey))
    (d d' : Draft) : Prop where
  catalog : Catalog.Swaps t t' d.catalog d'.catalog
  errors  : d.errors = d'.errors
  pending : d.pending.Perm (d'.pending ++ missing)

/-- What is missing is still missing behind more of them. -/
theorem perm_append_before {α : Type} {xs ys missing : List α} (h : xs.Perm (ys ++ missing))
    (more : List α) : (xs ++ more).Perm (ys ++ more ++ missing) := by
  refine (h.append_right more).trans ?_
  rw [List.append_assoc, List.append_assoc]
  exact List.perm_append_comm.append_left ys

namespace Draft.Behind

variable {t t' : Table} {missing : List (String × PendingForeignKey)} {d d' : Draft}

/-- Both drafts have the same error. -/
theorem addError (h : Behind t t' missing d d') (e : StatementError) :
    Behind t t' missing (d.addError e) (d'.addError e) :=
  ⟨h.catalog, congrArg (· ++ [e]) h.errors, h.pending⟩

/-- A table is added to both drafts, or is an error in both. -/
theorem addTable (h : Behind t t' missing d d') (hname : t'.name = t.name) (o : Origin)
    (definition : TableDefinition) :
    Behind t t' missing (d.addTable o definition) (d'.addTable o definition) := by
  unfold Draft.addTable
  rw [h.catalog.isSome_table? hname]
  split
  · split
    · exact h
    · exact h.addError _
  · exact ⟨(h.catalog.addEnums _).addTable _, h.errors, perm_append_before h.pending _⟩

/-- A statement is added to both drafts. -/
theorem addTokens (h : Behind t t' missing d d') (hname : t'.name = t.name) (dialect : Dialect)
    (o : Origin) (tokens : List Token) :
    Behind t t' missing (d.addTokens dialect o tokens) (d'.addTokens dialect o tokens) := by
  unfold Draft.addTokens
  cases Statement.parse dialect tokens with
  | error e => exact h.addError _
  | ok s =>
    cases s with
    | createTable definition => exact h.addTable hname o definition
    | createSequence s =>
      obtain ⟨before, after, htables, hcatalog⟩ := h.catalog
      refine ⟨⟨before, after, ?_, ?_⟩, h.errors, h.pending⟩
      · exact (Catalog.tables_addSequence _ _).trans htables
      · simp only [Draft.add, hcatalog, Catalog.addSequence_setTables]
    | createEnum e => exact ⟨h.catalog.addEnums [e], h.errors, h.pending⟩
    | change c => exact ⟨h.catalog, h.errors, h.pending⟩
    | skipped => exact h

theorem addAll (h : Behind t t' missing d d') (hname : t'.name = t.name) (dialect : Dialect)
    (statements : List (Origin × List Token)) :
    Behind t t' missing (d.addAll dialect statements) (d'.addAll dialect statements) := by
  induction statements generalizing d d' with
  | nil => exact h
  | cons s rest ih => exact ih (h.addTokens hname dialect s.1 s.2)

/-- A change of another table is made in both drafts. -/
theorem applyChange (h : Behind t t' missing d d') (hname : t'.name = t.name) (o : Origin)
    {change : TableChange} (hother : sameName t.name change.table = false) :
    Behind t t' missing (d.applyChange o change) (d'.applyChange o change) := by
  have happly := h.catalog.apply hname hother
  unfold Draft.applyChange
  generalize TableChange.apply d.catalog change = r at happly
  generalize TableChange.apply d'.catalog change = r' at happly
  cases happly with
  | error m => exact h.addError _
  | ok hr =>
    refine ⟨hr.1, h.errors, ?_⟩
    dsimp only
    rw [hr.2]
    exact perm_append_before h.pending _

theorem applyChanges (h : Behind t t' missing d d') (hname : t'.name = t.name)
    {changes : List (Origin × TableChange)}
    (hothers : ∀ c ∈ changes, sameName t.name c.2.table = false) :
    Behind t t' missing (d.applyChanges changes) (d'.applyChanges changes) := by
  induction changes generalizing d d' with
  | nil => exact h
  | cons c rest ih =>
    rw [List.forall_mem_cons] at hothers
    exact ih (h.applyChange hname c.1 hothers.1) hothers.2

/-- The change that completes the table, and brings the references, makes up the difference. -/
theorem catchUp (h : Behind t t' missing d d')
    (hdistinct : DistinctNames (d'.catalog.tables.map (·.name))) {actions : List AlterAction}
    {s : Staged} (hs : actions.foldlM Staged.act { table := t' } = .ok s)
    (ht : t.Rearranged s.table) (henums : s.enums = [])
    (hmissing : missing = s.foreignKeys.map fun fk => (s.table.name, fk)) (o : Origin) :
    d.Rearranged (d'.applyChange o (.alter t'.name actions)) := by
  -- `t'` stands between `before` and `after`, and no table before it has its name
  obtain ⟨before, after, htables, hcatalog⟩ := h.catalog
  rw [hcatalog] at hdistinct
  have hfound : d'.catalog.table? t'.name = some t' := by
    rw [hcatalog]
    exact Catalog.table?_of_mem hdistinct (by simp)
  have hbefore : ∀ u ∈ before, ¬ sameName u.name t'.name = true := by
    dsimp only at hdistinct
    rw [List.map_append, List.map_cons] at hdistinct
    intro u hu
    rw [Bool.not_eq_true]
    exact (List.pairwise_append.1 hdistinct).2.2 u.name (List.mem_map_of_mem hu) t'.name
      List.mem_cons_self
  have hreplaced : (d'.catalog.modifyTable t'.name fun _ => s.table) =
      { d.catalog with tables := before ++ s.table :: after } := by
    rw [Catalog.modifyTable, hcatalog]
    exact congrArg (fun tables => { d.catalog with tables })
      (modifyFirst_append (p := fun u : Table => sameName u.name t'.name) (sameName_self _) hbefore _)
  have happly : TableChange.apply d'.catalog (.alter t'.name actions) =
      .ok ({ d.catalog with tables := before ++ s.table :: after }, missing) := by
    unfold TableChange.apply
    dsimp only
    rw [hfound]
    dsimp only
    rw [hs, hmissing, ← hreplaced]
    dsimp only [bind, Except.bind]
    rw [henums]
    rfl
  -- what remains is to compare both catalogs table by table
  unfold Draft.applyChange
  rw [happly]
  refine ⟨⟨?_, rfl, rfl⟩, h.errors, h.pending⟩
  rw [htables]
  have hrefl (tables : List Table) : List.Forall₂ Table.Rearranged tables tables :=
    List.forall₂_same.2 fun u _ => .refl u
  exact List.rel_append (hrefl _) (.cons ht (hrefl _))

end Draft.Behind

-- ---------------------------------------------------------------------------
-- Statements
-- ---------------------------------------------------------------------------

/-- A definition and actions that together make what another definition makes at once. -/
structure Sql.TableDefinition.Completes (part : TableDefinition) (actions : List AlterAction)
    (whole : TableDefinition) : Prop where
  name        : part.table.name = whole.table.name
  inlineEnums : part.inlineEnums = whole.inlineEnums
  staged      : ∃ s, actions.foldlM Staged.act { table := part.table } = .ok s ∧ s.enums = [] ∧
                  whole.table.Rearranged s.table ∧
                  whole.foreignKeys.Perm (part.foreignKeys ++ s.foreignKeys)

/-- A draft that gets a whole table is ahead of one that gets a part of it. -/
theorem Draft.behind_addTable (d : Draft) (o : Origin) {part whole : TableDefinition}
    {fks : List PendingForeignKey} (hnew : d.catalog.table? whole.table.name = none)
    (hname : part.table.name = whole.table.name) (henums : part.inlineEnums = whole.inlineEnums)
    (hfks : whole.foreignKeys.Perm (part.foreignKeys ++ fks)) :
    Draft.Behind whole.table part.table (fks.map fun fk => (whole.table.name, fk))
      (d.addTable o whole) (d.addTable o part) := by
  unfold Draft.addTable
  rw [hname, hnew, henums]
  refine ⟨⟨(whole.inlineEnums.foldl Catalog.addEnum d.catalog).tables, [], rfl, rfl⟩, rfl, ?_⟩
  change (d.pending ++ whole.foreignKeys.map fun fk => (whole.table.name, fk)).Perm
    (d.pending ++ (part.foreignKeys.map fun fk => (whole.table.name, fk)) ++ _)
  rw [List.append_assoc, ← List.map_append]
  exact (hfks.map _).append_left _

/-- **Two steps.** A table may be created in part and altered at once to have the rest: the catalog
is the same up to the order of entries, and so are the errors and the reports. -/
theorem rearranged_ofStatements {dialect : Dialect} {before after : List (Origin × List Token)}
    {o o' : Origin} {ts ts' altered : List Token} {whole part : TableDefinition}
    {actions : List AlterAction} (hwhole : Statement.parse dialect ts = .ok (.createTable whole))
    (hpart : Statement.parse dialect ts' = .ok (.createTable part))
    (haltered : Statement.parse dialect altered =
      .ok (.change (.alter part.table.name actions)))
    (hcompletes : part.Completes actions whole)
    (hnew : (({} : Draft).addAll dialect before).catalog.table? whole.table.name = none)
    (hothers : ∀ c ∈ changesOf dialect before, sameName whole.table.name c.table = false) :
    (Extraction.ofStatements dialect (before ++ (o, ts) :: after)).Rearranged
      (Extraction.ofStatements dialect (before ++ (o, ts') :: (o', altered) :: after)) := by
  obtain ⟨hname, henums, s, hs, hnone, hrearranged, hfks⟩ := hcompletes
  let start := ({} : Draft).addAll dialect before
  let d := ({} : Draft).addAll dialect (before ++ (o, ts) :: after)
  let d' := ({} : Draft).addAll dialect (before ++ (o, ts') :: (o', altered) :: after)
  have hd : d.Sound := Draft.Sound.empty.addAll dialect _
  have hd' : d'.Sound := Draft.Sound.empty.addAll dialect _
  -- after the first pass, the second draft is behind by what its new change makes up
  have hbehind : Draft.Behind whole.table part.table
      (s.foreignKeys.map fun fk => (whole.table.name, fk)) d d' := by
    have hstart := Draft.behind_addTable start o hnew hname henums hfks
    have hd : d = (start.addTable o whole).addAll dialect after := by
      simp only [d, start, Draft.addAll, List.foldl_append, List.foldl_cons, Draft.addTokens, hwhole,
        Draft.add]
    have hd' : d' = ((start.addTable o part).add o' (.change (.alter part.table.name
        actions))).addAll dialect after := by
      simp only [d', start, Draft.addAll, List.foldl_append, List.foldl_cons, Draft.addTokens, hpart,
        haltered, Draft.add]
    have hput : Draft.Behind whole.table part.table
        (s.foreignKeys.map fun fk => (whole.table.name, fk)) (start.addTable o whole)
        ((start.addTable o part).add o' (.change (.alter part.table.name actions))) :=
      ⟨hstart.catalog, hstart.errors, hstart.pending⟩
    rw [hd, hd']
    exact hput.addAll hname dialect after
  have hchanges : d.changes = putAside dialect before ++ putAside dialect after := by
    have hnone : putAside dialect [(o, ts)] = [] := by
      simp [putAside, hwhole, Except.toOption, Statement.change?]
    rw [Draft.changes_eq_putAside, putAside_append, ← List.singleton_append, putAside_append, hnone]
    rfl
  have hchanges' : d'.changes = putAside dialect before ++
      (o', .alter part.table.name actions) :: putAside dialect after := by
    have hone : putAside dialect [(o, ts'), (o', altered)] =
        [(o', .alter part.table.name actions)] := by
      simp [putAside, hpart, haltered, Except.toOption, Statement.change?]
    rw [Draft.changes_eq_putAside, putAside_append,
      show (o, ts') :: (o', altered) :: after = [(o, ts'), (o', altered)] ++ after from rfl,
      putAside_append, hone]
    rfl
  have hothers' : ∀ c ∈ putAside dialect before, sameName whole.table.name c.2.table = false :=
    fun c hc => hothers c.2 (map_putAside dialect before ▸ List.mem_map_of_mem hc)
  have hput := hbehind.applyChanges hname hothers'
  have hdistinct := (hd'.applyChanges fun c hc => hd'.changes c
    (hchanges' ▸ List.mem_append_left _ hc)).distinct
  have hcaught := (hput.catchUp hdistinct hs hrearranged hnone
    (by rw [(Staged.keeps_of_actions hs).1, hname]) o').applyChanges (putAside dialect after)
  change (d.applyChanges d.changes).close.Rearranged (d'.applyChanges d'.changes).close
  refine Draft.Rearranged.close ?_ (hd.applyChanges hd.changes) (hd'.applyChanges hd'.changes)
  rw [hchanges, hchanges', Draft.applyChanges_append, Draft.applyChanges_append]
  exact hcaught

end CrudGen
