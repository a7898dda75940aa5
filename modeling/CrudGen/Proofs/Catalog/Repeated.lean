import CrudGen.Proofs.Catalog.Arrangement
import CrudGen.Proofs.Catalog.Failure
import CrudGen.Proofs.Sql.Guarded
import Mathlib.Data.List.Infix

/-!
# Catalogs — statements that are said again

A statement with the words `IF NOT EXISTS` may be said again at the end of a script. Whatever stands
in between, tables keep their columns and indexes (`Catalog.Extends`), and the first pass forgets no
table and no sequence. So a table or a sequence is found to be there. An index is not looked for, and
is there twice; a column is looked for, and its being there is an error.

Main result:

* `ofStatements_repeat` — what is made of a script that ends with a statement it has accepted before.
-/

namespace CrudGen

open Text (sameName)
open Sql (AlterAction Dialect PendingForeignKey Statement TableChange TableDefinition Token)
open Sql.Parser (Guarded Made ReadsAs)

-- ---------------------------------------------------------------------------
-- Tables that get more
-- ---------------------------------------------------------------------------

/-- A table with all that another has, in front of what it has besides. -/
structure Table.Extends (t t' : Table) : Prop where
  name    : t'.name = t.name
  columns : t.columnNames <+: t'.columnNames
  indexes : t.indexes <+: t'.indexes

namespace Table

variable {t t' t'' : Table}

theorem Extends.refl (t : Table) : t.Extends t :=
  ⟨rfl, List.prefix_rfl, List.prefix_rfl⟩

theorem Extends.trans (h : t.Extends t') (h' : t'.Extends t'') : t.Extends t'' :=
  ⟨h'.name.trans h.name, h.columns.trans h'.columns, h.indexes.trans h'.indexes⟩

/-- A column that a table has is found in more columns as well. -/
theorem Extends.hasColumn (h : t.Extends t') {name : String} (hname : t.hasColumn name = true) :
    t'.hasColumn name = true := by
  rw [← Bool.not_eq_false, hasColumn_eq_false_iff] at hname ⊢
  exact fun hnone => hname fun c hc => hnone c (h.columns.subset hc)

/-- Columns are found in the same spelling among more columns. -/
theorem Extends.declaredColumns (h : t.Extends t') {names found : List String}
    (hfound : t.declaredColumns names = .ok found) : t'.declaredColumns names = .ok found := by
  have hcolumn (t : Table) (name : String) :
      (t.column? name).map (·.name) = t.columnNames.find? (sameName · name) := by
    rw [column?, columnNames, List.find?_map]
    rfl
  obtain ⟨more, hmore⟩ := h.columns
  induction names generalizing found with
  | nil => exact hfound
  | cons name rest ih =>
    rw [Table.declaredColumns] at hfound ⊢
    cases hc : t.column? name with
    | none =>
      rw [hc] at hfound
      cases hfound
    | some c =>
      rw [hc] at hfound
      obtain ⟨others, hothers, rfl⟩ := ok_of_map hfound
      -- the first column of the name is the same
      have hname : (t'.column? name).map (·.name) = some c.name := by
        rw [hcolumn, ← hmore, List.find?_append, ← hcolumn, hc]
        rfl
      obtain ⟨c', hc', hsame⟩ := Option.map_eq_some_iff.1 hname
      rw [hc', ih hothers]
      exact congrArg (fun name => Except.ok (name :: others)) hsame

end Table

/-- An action adds columns and indexes, and removes none. -/
theorem Staged.Act.extends {s s' : Staged} {a : AlterAction} (h : s.Act a s') :
    s.table.Extends s'.table := by
  cases h with
  | addColumn =>
    refine ⟨rfl, ?_, List.prefix_rfl⟩
    rw [Table.columnNames, Table.columnNames, List.map_append]
    exact List.prefix_append _ _
  | addForeignKey | addUnique => exact ⟨rfl, List.prefix_rfl, List.prefix_rfl⟩
  | addPrimaryKey =>
    refine ⟨rfl, ?_, List.prefix_rfl⟩
    rw [Table.columnNames_markPrimaryKey]
    exact List.prefix_rfl
  | addIndex => exact ⟨rfl, List.prefix_rfl, List.prefix_append _ _⟩
  | setDefault =>
    refine ⟨rfl, ?_, List.prefix_rfl⟩
    rw [Table.columnNames, Table.columnNames, map_modifyFirst]
    exact fun _ => rfl

theorem Staged.extends_of_actions {actions : List AlterAction} {s s' : Staged}
    (h : actions.foldlM Staged.act s = .ok s') : s.table.Extends s'.table :=
  foldlM_ok (I := fun s' : Staged => s.table.Extends s'.table)
    (fun _ _ _ _ hs hact => hs.trans (act_cases hact).extends) (.refl _) h

/-- A change of one element relates all of them if it relates that one to what it was. -/
theorem forall₂_modifyFirst_self {α : Type} {R : α → α → Prop} {p : α → Bool} {f : α → α}
    (hrefl : ∀ a, R a a) (hf : ∀ a, R a (f a)) (as : List α) :
    List.Forall₂ R as (modifyFirst p f as) := by
  induction as with
  | nil => exact .nil
  | cons a rest ih =>
    rw [modifyFirst]
    split
    · exact .cons (hf a) (List.forall₂_same.2 fun a _ => hrefl a)
    · exact .cons (hrefl a) ih

/-- A catalog whose tables have all that the tables of another have, one by one. -/
def Catalog.Extends (c c' : Catalog) : Prop :=
  List.Forall₂ Table.Extends c.tables c'.tables

namespace Catalog.Extends

variable {c c' c'' : Catalog}

theorem refl (c : Catalog) : c.Extends c :=
  List.forall₂_same.2 fun t _ => .refl t

theorem trans (h : c.Extends c') (h' : c'.Extends c'') : c.Extends c'' := by
  unfold Catalog.Extends at *
  generalize c.tables = ts, c'.tables = ts', c''.tables = ts'' at *
  induction h generalizing ts'' with
  | nil => exact h'
  | cons ht _ ih =>
    obtain ⟨t'', rest'', ht', hrest', rfl⟩ := List.forall₂_cons_left_iff.1 h'
    exact .cons (ht.trans ht') (ih _ hrest')

/-- A table is found in what extends the catalog, and extended itself. -/
theorem table? (h : c.Extends c') {name : String} {t : Table} (ht : c.table? name = some t) :
    ∃ t', c'.table? name = some t' ∧ t.Extends t' := by
  have hfound : Option.Rel Table.Extends (c.table? name) (c'.table? name) :=
    forall₂_find? h fun _ _ ht => by rw [ht.name]
  rw [ht] at hfound
  generalize c'.table? name = t'? at hfound
  cases hfound with
  | some ht' => exact ⟨_, rfl, ht'⟩

/-- A catalog with a table replaced by one that extends it is extended. -/
theorem of_replaces {t t' : Table} (h : c.Replaces c' t t') (ht : t.Extends t') :
    c.Extends c' := by
  obtain ⟨before, after, hc, hc'⟩ := h
  rw [Catalog.Extends, hc, hc']
  exact List.rel_append (List.forall₂_same.2 fun t _ => .refl t)
    (.cons ht (List.forall₂_same.2 fun t _ => .refl t))

/-- A change of one table extends the catalog if it extends every table. -/
theorem modifyTable (c : Catalog) (name : String) {f : Table → Table}
    (hf : ∀ t : Table, t.Extends (f t)) :
    c.Extends (c.modifyTable name f) :=
  forall₂_modifyFirst_self .refl hf _

/-- A change that is accepted extends its table or adds an enumeration, and touches nothing else. -/
theorem of_applied {change : TableChange} {refs : List (String × PendingForeignKey)}
    (h : TableChange.Applied c change (c', refs)) : c.Extends c' := by
  cases h with
  | expressions => exact .refl c
  | index =>
    exact .modifyTable c _ fun t => ⟨rfl, List.prefix_rfl, List.prefix_append _ _⟩
  | @alter table t actions s ht hs =>
    have hextends : c.Extends (c.modifyTable table fun _ => s.table) :=
      .of_replaces (replaces_modifyTable ht _) (Staged.extends_of_actions hs)
    -- the enumerations of new columns leave the tables alone
    unfold Catalog.Extends
    rw [Catalog.tables_addEnums]
    exact hextends

/-- Columns that become enumerations keep their names. -/
theorem withEnumColumns (c : Catalog) : c.Extends c.withEnumColumns := by
  refine List.forall₂_map_right_iff.2 (List.forall₂_same.2 fun t _ => ⟨rfl, ?_, List.prefix_rfl⟩)
  rw [Table.columnNames, Table.columnNames, List.map_map]
  exact List.prefix_rfl

end Catalog.Extends

namespace Draft

variable {d : Draft}

/-- A change in the second pass extends the catalog, or is an error and leaves it. -/
theorem extends_applyChange (d : Draft) (o : Origin) (c : TableChange) :
    d.catalog.Extends (d.applyChange o c).catalog := by
  unfold applyChange
  split
  · rename_i happly
    exact .of_applied (TableChange.apply_cases happly)
  · exact .refl _

theorem extends_applyChanges (d : Draft) (cs : List (Origin × TableChange)) :
    d.catalog.Extends (d.applyChanges cs).catalog := by
  induction cs generalizing d with
  | nil => exact .refl _
  | cons c rest ih => exact (d.extends_applyChange c.1 c.2).trans (ih _)

/-- A reference that is followed becomes a foreign key, and tables have no fewer columns for it. -/
theorem extends_follow (x : Extraction) (table : String) (fk : PendingForeignKey) :
    x.catalog.Extends (follow x table fk).catalog := by
  unfold follow
  split
  · exact .modifyTable _ _ fun t => ⟨rfl, List.prefix_rfl, List.prefix_rfl⟩
  · exact .refl _

theorem extends_followAll (x : Extraction) (refs : List (String × PendingForeignKey)) :
    x.catalog.Extends (followAll x refs).catalog := by
  induction refs generalizing x with
  | nil => exact .refl _
  | cons ref rest ih => exact (extends_follow x ref.1 ref.2).trans (ih _)

/-- The last pass forgets nothing. -/
theorem extends_close (d : Draft) : d.catalog.Extends d.close.catalog :=
  (Catalog.Extends.withEnumColumns _).trans
    (extends_followAll { catalog := d.catalog.withEnumColumns, errors := d.errors } d.pending)

end Draft

-- ---------------------------------------------------------------------------
-- What the first pass makes
-- ---------------------------------------------------------------------------

/-- The first pass forgets nothing. -/
structure Catalog.Contains (c c' : Catalog) : Prop where
  tables    : c.tables <+: c'.tables
  sequences : c.sequences <+: c'.sequences

namespace Catalog.Contains

variable {c c' c'' : Catalog}

theorem refl (c : Catalog) : c.Contains c :=
  ⟨List.prefix_rfl, List.prefix_rfl⟩

theorem trans (h : c.Contains c') (h' : c'.Contains c'') : c.Contains c'' :=
  ⟨h.tables.trans h'.tables, h.sequences.trans h'.sequences⟩

/-- An enumeration is added beside the tables and sequences. -/
theorem addEnum (c : Catalog) (e : EnumType) : c.Contains (c.addEnum e) := by
  unfold Catalog.addEnum
  split
  · exact .refl c
  · exact ⟨List.prefix_rfl, List.prefix_rfl⟩

theorem addEnums (c : Catalog) (es : List EnumType) : c.Contains (es.foldl Catalog.addEnum c) := by
  induction es generalizing c with
  | nil => exact .refl c
  | cons e rest ih => exact (addEnum c e).trans (ih _)

/-- A sequence is added behind the others. -/
theorem addSequence (c : Catalog) (s : Sequence) : c.Contains (c.addSequence s) := by
  unfold Catalog.addSequence
  split
  · exact .refl c
  · exact ⟨List.prefix_rfl, List.prefix_append _ _⟩

/-- A table that is there stays there. -/
theorem isSome_table? (h : c.Contains c') {name : String} (hname : (c.table? name).isSome) :
    (c'.table? name).isSome := by
  rw [Catalog.table?, List.isSome_find?, List.any_eq_true] at hname ⊢
  obtain ⟨t, ht, hsame⟩ := hname
  exact ⟨t, h.tables.subset ht, hsame⟩

end Catalog.Contains

/-- What a statement makes is there. -/
def Catalog.Has (c : Catalog) : Statement → Prop
  | .createTable t => (c.table? t.table.name).isSome
  | .createSequence s => c.sequences.any (·.name == s.name)
  | _ => True

/-- What a statement makes stays there. -/
theorem Catalog.Contains.has {c c' : Catalog} (h : c.Contains c') {s : Statement}
    (hs : c.Has s) : c'.Has s := by
  cases s with
  | createTable t => exact h.isSome_table? hs
  | createSequence q =>
    rw [Catalog.Has, List.any_eq_true] at hs ⊢
    obtain ⟨other, hother, hsame⟩ := hs
    exact ⟨other, h.sequences.subset hother, hsame⟩
  | _ => trivial

namespace Draft

variable {d : Draft}

/-- A statement in the first pass adds to the catalog, or is an error and leaves it. -/
theorem contains_addTokens (d : Draft) (dialect : Dialect) (o : Origin) (tokens : List Token) :
    d.catalog.Contains (d.addTokens dialect o tokens).catalog := by
  unfold addTokens
  split
  · rename_i s hs
    cases s with
    | createTable t =>
      simp only [add, addTable]
      split
      · split <;> exact .refl _
      · exact (Catalog.Contains.addEnums d.catalog t.inlineEnums).trans
          ⟨List.prefix_append _ _, List.prefix_rfl⟩
    | createSequence q => exact .addSequence _ q
    | createEnum e => exact .addEnum _ e
    | change c => exact .refl _
    | skipped => exact .refl _
  · exact .refl _

theorem contains_addAll (d : Draft) (dialect : Dialect)
    (statements : List (Origin × List Token)) :
    d.catalog.Contains (d.addAll dialect statements).catalog := by
  induction statements generalizing d with
  | nil => exact .refl _
  | cons s rest ih => exact (d.contains_addTokens dialect s.1 s.2).trans (ih _)

/-- Once a statement is added, what it makes is there. -/
theorem has_add (d : Draft) (o : Origin) (s : Statement) : (d.add o s).catalog.Has s := by
  cases s with
  | createTable t =>
    simp only [Catalog.Has, add, addTable]
    split
    · split <;> assumption
    · rw [Catalog.table?, List.isSome_find?, List.any_eq_true]
      exact ⟨t.table, List.mem_append_right _ List.mem_cons_self, sameName_self _⟩
  | createSequence q =>
    simp only [Catalog.Has, add, Catalog.addSequence]
    split
    · assumption
    · simp
  | _ => trivial

/-- A sequence that is there is not added again, nor is a table that is asked for in case it is not
there. -/
theorem add_of_has {s : Statement} (h : d.catalog.Has s) {made : Made} (hmade : ReadsAs made s)
    (hkind : made = .table ∨ made = .sequence) (o : Origin) : d.add o s = d := by
  rcases hkind with rfl | rfl
  · obtain rfl | ⟨t, hasked, rfl⟩ := hmade
    · rfl
    · rw [add, addTable, if_pos (show (d.catalog.table? t.table.name).isSome from h), if_pos hasked]
  · obtain ⟨q, rfl⟩ := hmade
    rw [add, Catalog.addSequence, if_pos (show d.catalog.sequences.any (·.name == q.name) from h)]

end Draft

-- ---------------------------------------------------------------------------
-- An index more
-- ---------------------------------------------------------------------------

/-- A table with one more index. -/
def Table.addIndex (i : Index) (t : Table) : Table :=
  { t with indexes := t.indexes ++ [i] }

/-- Two changes may be made in either order if each of them leaves what the other one looks for, and
they agree on an element that both of them change. -/
theorem modifyFirst_comm {α : Type} {p q : α → Bool} {f g : α → α} (hp : ∀ a, p (g a) = p a)
    (hq : ∀ a, q (f a) = q a) (hfg : ∀ a, f (g a) = g (f a)) (as : List α) :
    modifyFirst p f (modifyFirst q g as) = modifyFirst q g (modifyFirst p f as) := by
  induction as with
  | nil => rfl
  | cons a rest ih =>
    by_cases hpa : p a <;> by_cases hqa : q a <;> simp [modifyFirst, hpa, hqa, hp, hq, hfg, ih]

namespace Catalog

/-- Changing a table and changing all tables may be done in either order. -/
theorem map_modifyTable {f g : Table → Table} (c : Catalog) (name : String)
    (hname : ∀ t, (g t).name = t.name) (hfg : ∀ t, g (f t) = f (g t)) :
    ({ c with tables := (c.modifyTable name f).tables.map g } : Catalog) =
      ({ c with tables := c.tables.map g } : Catalog).modifyTable name f := by
  unfold modifyTable
  congr 1
  dsimp only
  induction c.tables with
  | nil => rfl
  | cons t rest ih =>
    rw [modifyFirst, List.map_cons, modifyFirst, hname]
    split
    · rw [List.map_cons, hfg]
    · rw [List.map_cons, ih]

/-- A table that is changed is found as it was changed. -/
theorem table?_modifyTable {c : Catalog} {t : Table} {name : String} (h : c.table? name = some t)
    {f : Table → Table} (hf : (f t).name = t.name) :
    (c.modifyTable name f).table? name = some (f t) := by
  obtain ⟨hname, before, after, htables, hbefore⟩ := List.find?_eq_some_iff_append.1 h
  refine List.find?_eq_some_iff_append.2 ⟨hf ▸ hname, before, after, ?_, hbefore⟩
  rw [modifyTable, htables]
  exact modifyFirst_append (p := fun t : Table => sameName t.name name) hname
    (by simpa using hbefore) f

/-- No reference sees the indexes of a table. -/
theorem resolve_addIndex (c : Catalog) (name : String) (i : Index) (fk : PendingForeignKey) :
    PendingForeignKey.resolve (c.modifyTable name (Table.addIndex i)) fk =
      PendingForeignKey.resolve c fk := by
  -- an index adds no column, so what is found in the target is the same
  have hcolumns (t : Table) : (t.addIndex i).declaredColumns = t.declaredColumns :=
    Table.declaredColumns_congr rfl
  have htarget : Option.Rel (fun t t' => t' = t ∨ t' = t.addIndex i)
      (c.table? fk.targetTable) ((c.modifyTable name (Table.addIndex i)).table? fk.targetTable) :=
    forall₂_find? (forall₂_modifyFirst_self (fun t => .inl rfl) (fun t => .inr rfl) _)
      fun t t' h => by rcases h with rfl | rfl <;> rfl
  unfold PendingForeignKey.resolve
  generalize c.table? fk.targetTable = t?,
    (c.modifyTable name (Table.addIndex i)).table? fk.targetTable = t'? at htarget ⊢
  cases htarget with
  | none => rfl
  | some h =>
    rcases h with rfl | rfl
    · rfl
    · dsimp only
      rw [hcolumns]
      rfl

end Catalog

namespace Draft

/-- An index that is added before references are followed is there when they are followed. -/
theorem follow_addIndex (x : Extraction) (name : String) (i : Index) (table : String)
    (fk : PendingForeignKey) :
    follow { x with catalog := x.catalog.modifyTable name (Table.addIndex i) } table fk =
      { follow x table fk with
        catalog := (follow x table fk).catalog.modifyTable name (Table.addIndex i) } := by
  unfold follow
  dsimp only
  rw [Catalog.resolve_addIndex]
  split
  · rename_i r hr
    have hcomm := modifyFirst_comm (p := fun t : Table => sameName t.name table)
      (q := fun t => sameName t.name name)
      (f := fun t => { t with foreignKeys := t.foreignKeys ++ [r] }) (g := Table.addIndex i)
      (fun _ => rfl) (fun _ => rfl) (fun _ => rfl) x.catalog.tables
    simp only [Catalog.modifyTable, hcomm]
  · rfl

/-- An index that is added before references are followed stands there behind them. -/
theorem followAll_addIndex (x : Extraction) (name : String) (i : Index)
    (refs : List (String × PendingForeignKey)) :
    followAll { x with catalog := x.catalog.modifyTable name (Table.addIndex i) } refs =
      { followAll x refs with
        catalog := (followAll x refs).catalog.modifyTable name (Table.addIndex i) } := by
  induction refs generalizing x with
  | nil => rfl
  | cons ref rest ih =>
    change followAll (follow { x with catalog := _ } ref.1 ref.2) rest = _
    rw [follow_addIndex, ih]
    rfl

theorem close_addIndex (d : Draft) (name : String) (i : Index) :
    ({ d with catalog := d.catalog.modifyTable name (Table.addIndex i) } : Draft).close =
      { d.close with catalog := d.close.catalog.modifyTable name (Table.addIndex i) } := by
  have htyped : (d.catalog.modifyTable name (Table.addIndex i)).withEnumColumns =
      d.catalog.withEnumColumns.modifyTable name (Table.addIndex i) :=
    Catalog.map_modifyTable d.catalog name (fun _ => rfl) (fun _ => rfl)
  unfold close
  rw [htyped]
  exact followAll_addIndex { catalog := d.catalog.withEnumColumns, errors := d.errors } name i
    d.pending

-- ---------------------------------------------------------------------------
-- A change that is made again
-- ---------------------------------------------------------------------------

/-- A change that is put aside last is applied last. -/
theorem finish_add_change (d : Draft) (o : Origin) (c : TableChange) :
    (d.add o (.change c)).finish = ((d.applyChanges d.changes).applyChange o c).close := by
  obtain ⟨errors, happly, -⟩ := notes_applyChanges d d.changes
  obtain ⟨errors', hlast, -⟩ := notes_applyChange (d.applyChanges d.changes) o c
  have hnotes := happly.comp hlast
  have hrun : (d.add o (.change c)).applyChanges (d.changes ++ [(o, c)]) =
      ((d.applyChanges d.changes).applyChange o c).withLog
        ((d.applyChanges d.changes).applyChange o c).errors (d.changes ++ [(o, c)]) := by
    have hlog := hnotes d.errors (d.changes ++ [(o, c)])
    rw [List.append_nil, List.append_nil, ← hnotes.self.1] at hlog
    rw [applyChanges_append]
    exact hlog
  have hchanges : (d.add o (.change c)).changes = d.changes ++ [(o, c)] := rfl
  rw [finish_eq_close, hchanges, hrun, close_withLog, ← close_errors]

end Draft

/-- The first pass over a script, at one of its statements. -/
theorem addAll_numbered {dialect : Dialect} {before after : List (String × List Token)}
    {s : String × List Token} {statement : Statement}
    (hparse : Statement.parse dialect s.2 = .ok statement) :
    ({} : Draft).addAll dialect (numbered (before ++ s :: after)) =
      ((({} : Draft).addAll dialect (numbered before)).add
          { number := before.length + 1, excerpt := s.1 } statement).addAll dialect
        (numberedFrom (before.length + 1) after) := by
  have hadd (d : Draft) (o : Origin) : d.addTokens dialect o s.2 = d.add o statement := by
    rw [Draft.addTokens, hparse]
  rw [numbered_append, numberedFrom_cons, ← hadd]
  exact List.foldl_append

/-- A change that applied at its turn, and what became of the catalog since then. -/
theorem exists_turn {dialect : Dialect} {before after : List (String × List Token)}
    {s : String × List Token} {c : TableChange}
    (hparse : Statement.parse dialect s.2 = .ok (.change c)) (h : ¬ Fails dialect before s after) :
    let d := ({} : Draft).addAll dialect (numbered (before ++ s :: after))
    ∃ turn r, TableChange.Applied turn c r ∧ r.1.Extends (d.applyChanges d.changes).catalog := by
  intro d
  let o : Origin := { number := before.length + 1, excerpt := s.1 }
  let first := ({} : Draft).addAll dialect (numbered before)
  -- what comes before the statement is applied before it, the rest behind it
  have hd : d = (first.add o (.change c)).addAll dialect
      (numberedFrom (before.length + 1) after) := addAll_numbered hparse
  obtain ⟨errors, later, hnotes, -⟩ :=
    Draft.notes_addAll (first.add o (.change c)) dialect (numberedFrom (before.length + 1) after)
  have hchanges : d.changes = first.changes ++ (o, c) :: later := by
    rw [hd, hnotes.self.2]
    exact List.append_assoc ..
  cases happly : TableChange.apply (d.applyChanges first.changes).catalog c with
  | error m => exact absurd (.misfit hparse happly) h
  | ok r =>
    refine ⟨_, r, TableChange.apply_cases happly, ?_⟩
    have hturn : ((d.applyChanges first.changes).applyChange o c).catalog = r.1 := by
      rw [Draft.applyChange, happly]
    -- tables only grow in what follows
    rw [hchanges, Draft.applyChanges_append, ← hturn]
    exact Draft.extends_applyChanges _ later

/-- An index is made again in the table that has it. -/
theorem TableChange.apply_index_again {c c' : Catalog} {table : String} {i? : Option Index}
    {r : Catalog × List (String × PendingForeignKey)}
    (h : TableChange.Applied c (.index table i?) r) (hextends : r.1.Extends c') :
    (i? = none ∧ apply c' (.index table i?) = .ok (c', [])) ∨
      ∃ t j, c'.table? table = some t ∧ j ∈ t.indexes ∧
        (∃ i, i? = some i ∧ j = { i with columns := j.columns }) ∧
          apply c' (.index table i?) = .ok (c'.modifyTable table (Table.addIndex j), []) := by
  cases h with
  | @expressions _ t ht =>
    obtain ⟨t', ht', -⟩ := hextends.table? ht
    refine .inl ⟨rfl, ?_⟩
    rw [apply, ht']
    rfl
  | @index _ t i columns ht hfound =>
    have hmade := Catalog.table?_modifyTable ht (f := Table.addIndex { i with columns }) rfl
    obtain ⟨t', ht', hmore⟩ := hextends.table? hmade
    refine .inr ⟨t', { i with columns }, ht', hmore.indexes.subset ?_, ⟨i, rfl, rfl⟩, ?_⟩
    · exact List.mem_append_right _ List.mem_cons_self
    -- the index was made of columns of the table, and they are still there
    · have hkept : (t.addIndex { i with columns }).declaredColumns = t.declaredColumns :=
        Table.declaredColumns_congr rfl
      have hagain : t'.declaredColumns i.columns = .ok columns :=
        hmore.declaredColumns (hkept ▸ hfound)
      rw [apply, ht']
      dsimp only
      rw [Table.requireColumns, hagain]
      rfl

/-- A column is not added again to the table that has it. -/
theorem TableChange.apply_column_again {c c' : Catalog} {table : String}
    {column : Sql.ColumnDefinition} {more : List AlterAction}
    {r : Catalog × List (String × PendingForeignKey)}
    (h : TableChange.Applied c (.alter table (.addColumn column :: more)) r)
    (hextends : r.1.Extends c') :
    apply c' (.alter table (.addColumn column :: more)) =
      .error (.duplicateColumn column.column.name) := by
  cases h with
  | @alter _ t _ s ht hs =>
    -- the first action has added the column, and the table has had it ever since
    have hcolumn : s.table.hasColumn column.column.name = true := by
      rw [List.foldlM_cons] at hs
      obtain ⟨s₁, hfirst, hrest⟩ := ok_of_bind hs
      refine (Staged.extends_of_actions hrest).hasColumn ?_
      cases Staged.act_cases hfirst with
      | addColumn =>
        rw [← Bool.not_eq_false, Table.hasColumn_eq_false_iff]
        refine fun hnone => absurd (hnone column.column.name ?_) (by simp [sameName_self])
        exact List.mem_map_of_mem (List.mem_append_right _ List.mem_cons_self)
    have hmade := Catalog.table?_modifyTable ht (f := fun _ => s.table)
      (Staged.extends_of_actions hs).name
    have hsame : (s.enums.foldl Catalog.addEnum (c.modifyTable table fun _ => s.table)).table?
        table = some s.table := by
      rw [Catalog.table?, Catalog.tables_addEnums]
      exact hmade
    obtain ⟨t', ht', hmore⟩ := hextends.table? hsame
    rw [apply, ht']
    dsimp only
    rw [List.foldlM_cons, Staged.act, if_pos (hmore.hasColumn hcolumn)]
    rfl

-- ---------------------------------------------------------------------------
-- A statement that is said again
-- ---------------------------------------------------------------------------

/-- What a statement with the words `IF NOT EXISTS` changes when it is said again: nothing for a
table or a sequence; an index is listed a second time, unless it is over expressions and not kept at
all; a column is refused. -/
def SaidAgain (once again : Extraction) (o : Origin) : Made → Statement → Prop
  | .index, .change (.index table i?) =>
    (i? = none ∧ again = once) ∨
      ∃ i t j, i? = some i ∧ once.catalog.table? table = some t ∧ j ∈ t.indexes ∧
        j = { i with columns := j.columns } ∧
          again = { once with catalog := once.catalog.modifyTable table (Table.addIndex j) }
  | .column, .change (.alter _ (.addColumn d :: _)) =>
    again = { once with
      errors := once.errors ++ [o.error (Misfit.duplicateColumn d.column.name).message] }
  | _, _ => again = once

/-- A script with one more statement at its end is the draft of the others with that statement
added. -/
theorem ofStatements_concat (dialect : Dialect) (statements : List (String × List Token))
    (s : String × List Token) :
    Extraction.ofStatements dialect (numbered (statements ++ [s])) =
      ((({} : Draft).addAll dialect (numbered statements)).addTokens dialect
        { number := statements.length + 1, excerpt := s.1 } s.2).finish := by
  rw [Extraction.ofStatements, numbered_append, numberedFrom_cons, Draft.addAll, List.foldl_append]
  rfl

/-- **Statements said again.** A statement with the words `IF NOT EXISTS` that a script has accepted
may be said again at its end. Tables and sequences are left as they are. Indexes and columns do not
keep the words: the index is made again in the table that has it, and the column is an error. -/
theorem ofStatements_repeat {dialect : Dialect} {before after : List (String × List Token)}
    {s : String × List Token} {made : Made} (hguarded : Guarded made s.2)
    (haccepted : ¬ Fails dialect before s after) :
    let script := before ++ s :: after
    ∃ statement, Statement.parse dialect s.2 = .ok statement ∧ ReadsAs made statement ∧
      SaidAgain (Extraction.ofStatements dialect (numbered script))
        (Extraction.ofStatements dialect (numbered (script ++ [s])))
        { number := script.length + 1, excerpt := s.1 } made statement := by
  intro script
  let o : Origin := { number := script.length + 1, excerpt := s.1 }
  let d := ({} : Draft).addAll dialect (numbered script)
  have honce : Extraction.ofStatements dialect (numbered script) =
      (d.applyChanges d.changes).close := rfl
  cases hparse : Statement.parse dialect s.2 with
  | error e => exact absurd (.unreadable hparse) haccepted
  | ok statement =>
    have hreads := hguarded.reads hparse
    have hagain : Extraction.ofStatements dialect (numbered (script ++ [s])) =
        (d.add o statement).finish := by
      rw [ofStatements_concat, Draft.addTokens, hparse]
    refine ⟨statement, rfl, hreads, ?_⟩
    -- what the first pass has made, it does not make again
    have hmade (hkind : made = .table ∨ made = .sequence) :
        Extraction.ofStatements dialect (numbered (script ++ [s])) =
          Extraction.ofStatements dialect (numbered script) := by
      have hhas : d.catalog.Has statement := by
        simp only [d, script]
        rw [addAll_numbered hparse]
        exact (Draft.contains_addAll _ dialect _).has (Draft.has_add _ _ statement)
      rw [hagain, Draft.add_of_has hhas hreads hkind]
      rfl
    cases made with
    | table => exact hmade (.inl rfl)
    | sequence => exact hmade (.inr rfl)
    | index =>
      obtain ⟨table, i?, rfl⟩ := hreads
      obtain ⟨turn, r, happlied, hextends⟩ := exists_turn hparse haccepted
      rw [Draft.finish_add_change, Draft.applyChange] at hagain
      obtain ⟨hnone, hsame⟩ | ⟨t, j, ht, hj, ⟨i, hi, hkept⟩, hmore⟩ :=
        TableChange.apply_index_again happlied hextends
      · rw [hsame] at hagain
        dsimp only at hagain
        rw [List.append_nil] at hagain
        exact .inl ⟨hnone, hagain⟩
      · obtain ⟨t', ht', hmore'⟩ := (Draft.extends_close (d.applyChanges d.changes)).table? ht
        refine .inr ⟨i, t', j, hi, ht', hmore'.indexes.subset hj, hkept, ?_⟩
        rw [hmore] at hagain
        dsimp only at hagain
        rw [List.append_nil, Draft.close_addIndex] at hagain
        exact hagain
    | column =>
      obtain ⟨table, column, more, rfl⟩ := hreads
      obtain ⟨turn, r, happlied, hextends⟩ := exists_turn hparse haccepted
      have hrefused := TableChange.apply_column_again happlied hextends
      rw [Draft.finish_add_change, Draft.applyChange, hrefused] at hagain
      have hlog := (d.applyChanges d.changes).close_withLog ((d.applyChanges d.changes).errors ++
        [o.error (Misfit.duplicateColumn column.column.name).message])
        (d.applyChanges d.changes).changes
      have herrors : (Extraction.ofStatements dialect (numbered script)).errors =
          (d.applyChanges d.changes).errors := Draft.close_errors _
      rw [SaidAgain, herrors]
      exact hagain.trans hlog

theorem ofStatements_repeat_of_column :
    let before := [statementOf "CREATE TABLE t (a INT)"]
    let s := statementOf "ALTER TABLE t ADD COLUMN IF NOT EXISTS b INT"
    let once := Extraction.ofStatements .generic (numbered (before ++ [s]))
    Guarded .column s.2 ∧ ¬ Fails .generic before s [] ∧ ∃ name,
      Extraction.ofStatements .generic (numbered (before ++ [s] ++ [s])) = { once with
        errors := once.errors ++ [⟨3, s.1, (Misfit.duplicateColumn name).message⟩] } := by
  intro before s once
  have hguarded : Guarded .column s.2 := by
    have hs : s.2 = .keyword .alter :: .keyword .table :: ([] ++ ([.ident "t"] ++ .keyword .add ::
        ([.ident "COLUMN"] ++ (Sql.Parser.guardTokens ++ [.ident "b", .ident "INT"])))) := by
      decide +kernel
    rw [hs]
    exact .column List.mem_cons_self (.last rfl) Token.noConfusion Token.noConfusion
      (.inr ⟨_, by decide +kernel, rfl⟩)
  -- the statement adds no error, so it does not fail
  have haccepted : ¬ Fails .generic before s [] := by
    rw [fails_iff]
    have hnone : once.errors = [] := by decide +kernel
    change ¬ ∃ e ∈ once.errors, _
    rw [hnone]
    exact fun ⟨e, he, _⟩ => absurd he List.not_mem_nil
  obtain ⟨statement, -, ⟨table, column, more, rfl⟩, hagain⟩ :=
    ofStatements_repeat hguarded haccepted
  exact ⟨hguarded, haccepted, column.column.name, hagain⟩

/-- A column that is asked for in case it is not there is refused the second time. -/
theorem errors_of_repeated_column :
    let once := "CREATE TABLE t (a INT); ALTER TABLE t ADD COLUMN IF NOT EXISTS b INT"
    (Extraction.ofScript once .generic).errors = [] ∧
      (Extraction.ofScript (once ++ "; ALTER TABLE t ADD COLUMN IF NOT EXISTS b INT")
        .generic).errors = [{
          statement := 3
          excerpt := "ALTER TABLE t ADD COLUMN IF NOT EXISTS b INT"
          reason := "column `b` already exists" }] := by
  dsimp only
  rw [Extraction.ofScript_of_toList String.toList_ofList, Extraction.ofScript_of_toList
    (toList_append_of String.toList_ofList String.toList_ofList)]
  decide +kernel

end CrudGen
