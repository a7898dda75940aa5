import CrudGen.Proofs.Data.Except
import CrudGen.Proofs.Sql.Dialects

/-!
# Statements — references without their case

What a statement refers to is looked up later, without regard to the case of ASCII letters. The
`folded` form of what a statement says has every reference in lower case, and every declaration as
it is. Parsers that start from drafts with the same folded form read into drafts with the same folded
form.

Main results:

* `alike_tableElement_folded`, `alike_alterElement_folded`, `alike_indexElement_folded` — elements
  and parts do not look at references that are read already.
* `TableDraft.definition_folded` — nor does a table when it is put together, unless it fails.
-/

namespace CrudGen.Sql

open Text (foldAscii sameName)

-- ---------------------------------------------------------------------------
-- Folded forms
-- ---------------------------------------------------------------------------

/-- Names without their case. -/
def foldNames (names : List String) : List String :=
  names.map foldAscii

/-- A reference with its target in lower case. Its own columns are declared. -/
def PendingForeignKey.folded (fk : PendingForeignKey) : PendingForeignKey :=
  { fk with
    targetTable := foldAscii fk.targetTable
    targetColumns := fk.targetColumns.map foldNames }

/-- A reference with its columns and its target in lower case. -/
def PendingForeignKey.foldedAll (fk : PendingForeignKey) : PendingForeignKey :=
  { fk.folded with columns := foldNames fk.columns }

/-- A column definition with the target of its reference in lower case. -/
def ColumnDefinition.folded (d : ColumnDefinition) : ColumnDefinition :=
  { d with foreignKey := d.foreignKey.map (·.folded) }

/-- An index with its columns in lower case. -/
def foldIndex (i : Index) : Index :=
  { i with columns := foldNames i.columns }

/-- A constraint with all columns and targets in lower case. -/
def TableConstraint.folded : TableConstraint → TableConstraint
  | .primaryKey columns => .primaryKey (foldNames columns)
  | .unique u => .unique { u with columns := foldNames u.columns }
  | .foreignKey fk => .foreignKey fk.foldedAll
  | .index i => .index (foldIndex i)
  | .ignored => .ignored

/-- A definition with the targets of its references in lower case. -/
def TableDefinition.folded (d : TableDefinition) : TableDefinition :=
  { d with foreignKeys := d.foreignKeys.map (·.folded) }

/-- An action with all that it refers to in lower case. -/
def AlterAction.folded : AlterAction → AlterAction
  | .addColumn d => .addColumn d.folded
  | .addForeignKey fk => .addForeignKey fk.foldedAll
  | .addUnique u => .addUnique { u with columns := foldNames u.columns }
  | .addPrimaryKey columns => .addPrimaryKey (foldNames columns)
  | .addIndex i => .addIndex (foldIndex i)
  | .setDefault column expression => .setDefault (foldAscii column) expression

/-- A change with all that it refers to in lower case. -/
def TableChange.folded : TableChange → TableChange
  | .index table i => .index (foldAscii table) (i.map foldIndex)
  | .alter table actions => .alter (foldAscii table) (actions.map (·.folded))

/-- A statement with all that it refers to in lower case. -/
def Statement.folded : Statement → Statement
  | .createTable d => .createTable d.folded
  | .change c => .change c.folded
  | other => other

namespace Parser

/-- A draft with the target of its reference in lower case. -/
def ColumnDraft.folded (d : ColumnDraft) : ColumnDraft :=
  { d with foreignKey := d.foreignKey.map (·.folded) }

/-- A draft with all that it refers to in lower case. -/
def TableDraft.folded (d : TableDraft) : TableDraft :=
  { d with
    foreignKeys := d.foreignKeys.map (·.folded)
    constraints := d.constraints.map (·.folded) }

/-- A draft with its columns in lower case. -/
def IndexDraft.folded (d : IndexDraft) : IndexDraft :=
  { d with columns := foldNames d.columns }

-- ---------------------------------------------------------------------------
-- Columns
-- ---------------------------------------------------------------------------

/-- A clause is read without looking at how names have been spelled. -/
theorem alike_columnClause_folded {d d' : ColumnDraft} (h : d.folded = d'.folded) :
    Alike (stepView ColumnDraft.folded) (columnClause d) (columnClause d') := by
  refine alike_columnClause (congrArg (·.column.name) h) h fun c => ?_
  have hcolumn : d.column = d'.column := congrArg (·.column) h
  have hreference : d.foreignKey.map (·.folded) = d'.foreignKey.map (·.folded) :=
    congrArg (·.foreignKey) h
  simp only [Clause.apply, ColumnDraft.folded, Option.map_or, hcolumn, hreference]

-- ---------------------------------------------------------------------------
-- Tables
-- ---------------------------------------------------------------------------

/-- A constraint is added in every spelling. -/
theorem TableDraft.folded_addConstraint {d d' : TableDraft} (h : d.folded = d'.folded)
    {c c' : TableConstraint} (hc : c.folded = c'.folded) :
    (d.addConstraint c).folded = (d'.addConstraint c').folded := by
  have happend (d : TableDraft) (c : TableConstraint) :
      (d.addConstraint c).folded = d.folded.addConstraint c.folded := by
    simp [folded, addConstraint]
  rw [happend, happend, h, hc]

/-- A column is added without looking at how names are spelled in constraints. -/
theorem TableDraft.addColumn_folded (d : TableDraft) (c : ColumnDefinition) :
    d.folded.addColumn c.folded = (d.addColumn c).map TableDraft.folded := by
  rw [addColumn, addColumn]
  change ite ((d.columns.any fun other => sameName other.name c.column.name) = true) _ _ = _
  split
  · rfl
  · refine congrArg Except.ok ?_
    simp [folded, ColumnDefinition.folded, Option.toList_map]

theorem TableDraft.enter_folded {d d' : TableDraft} (h : d.folded = d'.folded) (e : Entry) :
    (d.enter e).map TableDraft.folded = (d'.enter e).map TableDraft.folded := by
  cases e with
  | column c => rw [enter, enter, ← addColumn_folded, h, addColumn_folded]
  | constraint k => exact congrArg Except.ok (folded_addConstraint h rfl)
  | skipped => exact congrArg Except.ok h

theorem alike_tableElement_folded (dialect : Dialect) (table : String) {d d' : TableDraft}
    (h : d.folded = d'.folded) :
    Alike (stepView TableDraft.folded) (tableElement dialect table d)
      (tableElement dialect table d') :=
  alike_tableElement h fun _ => .next fun e => alike_entering (TableDraft.enter_folded h e)

end Parser

end CrudGen.Sql

namespace CrudGen

open Text (foldAscii sameName)
open Sql (foldNames)

/-- Columns are found under any spelling of their names. -/
theorem Table.column?_folded (t : Table) {name name' : String} (h : foldAscii name = foldAscii name') :
    t.column? name = t.column? name' := by
  have hsame : (fun c : Column => sameName c.name name) = fun c => sameName c.name name' := by
    funext c
    rw [sameName, sameName, h]
  rw [column?, column?, hsame]

/-- Names of columns are declared alike in any spelling. -/
theorem Table.declaredColumns_folded (t : Table) {names names' : List String}
    (h : foldNames names = foldNames names') :
    (t.declaredColumns names).toOption = (t.declaredColumns names').toOption := by
  induction names generalizing names' with
  | nil =>
    obtain rfl : names' = [] := List.map_eq_nil_iff.1 h.symm
    rfl
  | cons name rest ih =>
    obtain ⟨name', rest', rfl, hname, hrest⟩ := List.map_eq_cons_iff.1 h.symm
    have hmore := ih hrest.symm
    rw [declaredColumns, declaredColumns, t.column?_folded hname]
    cases t.column? name with
    | none => rfl
    | some c =>
      generalize t.declaredColumns rest = x at hmore
      generalize t.declaredColumns rest' = y at hmore
      cases x <;> cases y <;> simp_all [Except.toOption, Except.map]

namespace Sql.Parser

/-- A table and references that wait, with the targets of the references in lower case. -/
def foldedPair (s : Table × List PendingForeignKey) : Table × List PendingForeignKey :=
  (s.1, s.2.map (·.folded))

/-- Columns are required in every spelling. -/
theorem requireColumns_folded (t : Table) {names names' : List String}
    (h : foldNames names = foldNames names') (context : String) :
    (requireColumns t names context).toOption = (requireColumns t names' context).toOption := by
  rw [requireColumns, requireColumns, toOption_mapError, toOption_mapError,
    t.declaredColumns_folded h]

/-- A constraint is applied in every spelling, or in none. -/
theorem applyConstraint_folded {s s' : Table × List PendingForeignKey} {c c' : TableConstraint}
    (hs : foldedPair s = foldedPair s') (hc : c.folded = c'.folded) :
    (applyConstraint s c).toOption.map foldedPair =
      (applyConstraint s' c').toOption.map foldedPair := by
  obtain ⟨t, fks⟩ := s
  obtain ⟨t', fks'⟩ := s'
  obtain ⟨rfl, hfks⟩ := Prod.mk.inj hs
  have hadded (fk fk' : PendingForeignKey) (hfk : fk.folded = fk'.folded) :
      foldedPair (t, fks ++ [fk]) = foldedPair (t, fks' ++ [fk']) := by
    rw [foldedPair, foldedPair, List.map_append, List.map_append, hfks, List.map_singleton,
      List.map_singleton, hfk]
  have hother (u : Table) : foldedPair (u, fks) = foldedPair (u, fks') :=
    congrArg (Prod.mk u) hfks
  -- constraints folded alike are of one kind
  cases c <;> cases c' <;> simp only [TableConstraint.folded, reduceCtorEq] at hc
  -- a second key is refused on both sides, as the tables are the same
  case primaryKey.primaryKey columns columns' =>
    have hcolumns := TableConstraint.primaryKey.inj hc
    refine toOption_bind_congr (requireColumns_folded t hcolumns _) fun found => ?_
    dsimp only
    split
    · rfl
    · exact congrArg some (hother _)
  case unique.unique u u' =>
    obtain ⟨hname, hcolumns⟩ := UniqueConstraint.mk.inj (TableConstraint.unique.inj hc)
    refine toOption_bind_congr (requireColumns_folded t hcolumns _) fun found => ?_
    rw [hname]
    exact congrArg some (hother _)
  -- a foreign key is put off, with its own columns found in the table
  case foreignKey.foreignKey fk fk' =>
    have hfk := TableConstraint.foreignKey.inj hc
    have hcolumns : foldNames fk.columns = foldNames fk'.columns := congrArg (·.columns) hfk
    refine toOption_bind_congr (requireColumns_folded t hcolumns _) fun found => ?_
    exact congrArg some (hadded _ _ (congrArg (fun fk => { fk with columns := found }) hfk))
  case index.index i i' =>
    obtain ⟨hname, hcolumns, hunique⟩ := Index.mk.inj (TableConstraint.index.inj hc)
    refine toOption_bind_congr (requireColumns_folded t hcolumns _) fun found => ?_
    rw [hname, hunique]
    exact congrArg some (hother _)
  case ignored.ignored => exact congrArg some hs

/-- A table is put together without a look at the spelling of references, unless it fails. -/
theorem TableDraft.definition_folded {d d' : TableDraft} (h : d.folded = d'.folded)
    (table : String) (ifNotExists : Bool) :
    (d.definition table ifNotExists).toOption.map TableDefinition.folded =
      (d'.definition table ifNotExists).toOption.map TableDefinition.folded := by
  obtain ⟨columns, fks, enums, constraints⟩ := d
  obtain ⟨columns', fks', enums', constraints'⟩ := d'
  obtain ⟨rfl, hfks, rfl, hconstraints⟩ := TableDraft.mk.inj h
  rw [definition, definition]
  -- columns are equal, and so are the tests on them; only references are folded
  dsimp only
  split
  · rfl
  · split
    · rfl
    · have hstart (t : Table) : foldedPair (t, fks) = foldedPair (t, fks') :=
        congrArg (Prod.mk t) hfks
      refine toOption_bind_view (v := foldedPair)
        (foldlM_toOption_view applyConstraint_folded hconstraints (hstart _)) fun s s' hs => ?_
      obtain ⟨t, fks⟩ := s
      obtain ⟨t', fks'⟩ := s'
      obtain ⟨rfl, hmade⟩ := Prod.mk.inj hs
      refine congrArg some ?_
      simp only [TableDefinition.folded, hmade]

end Sql.Parser

-- ---------------------------------------------------------------------------
-- Changes
-- ---------------------------------------------------------------------------

namespace Sql.Parser

/-- Parts of a change are read without looking at those before them. -/
theorem alike_alterElement_folded (dialect : Dialect) (table : String)
    {actions actions' : List AlterAction}
    (h : actions.map (·.folded) = actions'.map (·.folded)) :
    Alike (stepView (List.map (·.folded))) (alterElement dialect table actions)
      (alterElement dialect table actions') := by
  have hyield : stepView (List.map (·.folded)) (.yield actions) =
      stepView (List.map (·.folded)) (.yield actions') :=
    congrArg ForInStep.yield h
  have happend (action : Option AlterAction) :
      stepView (List.map (·.folded)) (.yield (actions ++ action.toList)) =
        stepView (List.map (·.folded)) (.yield (actions' ++ action.toList)) := by
    refine congrArg ForInStep.yield ?_
    rw [List.map_append, List.map_append, h]
  -- the front is the same, so the same part is read
  refine .next fun t => ?_
  split
  · exact .pure (congrArg ForInStep.done h)
  · exact .next fun _ => .pure hyield
  · exact .next fun _ => .pure hyield
  · exact .next fun _ => .next fun _ => .pure (happend _)
  · exact .next fun _ => .next fun _ => .pure (happend _)
  · exact .next fun _ => .pure hyield

/-- Columns of an index are read without looking at those before them. -/
theorem alike_indexElement_folded {d d' : IndexDraft} (h : d.folded = d'.folded) :
    Alike (stepView IndexDraft.folded) (indexElement d) (indexElement d') := by
  -- columns and expressions grow alike, whatever is added
  have hcolumn (column : String) (called : Bool) :
      stepView IndexDraft.folded (.yield {
        columns := d.columns ++ [column]
        expression := d.expression || called }) =
      stepView IndexDraft.folded (.yield {
        columns := d'.columns ++ [column]
        expression := d'.expression || called }) := by
    obtain ⟨hcolumns, hexpression⟩ := IndexDraft.mk.inj h
    refine congrArg ForInStep.yield ?_
    simp only [IndexDraft.folded, foldNames, List.map_append] at hcolumns hexpression ⊢
    rw [hcolumns, hexpression]
  refine .next fun t => ?_
  split
  · exact .next fun _ => .pure (congrArg ForInStep.done h)
  · exact .refl
  · exact .next fun _ => .pure (congrArg ForInStep.yield h)
  · exact .next fun _ => .pure (congrArg ForInStep.yield
      (congrArg (fun d : IndexDraft => { d with expression := true }) h))
  · exact .next fun column => .next fun called => .next fun _ => .pure (hcolumn column called)

end Sql.Parser

-- ---------------------------------------------------------------------------
-- The table of a change
-- ---------------------------------------------------------------------------

namespace Sql

/-- An action, unless it adds a column with an enumeration of its own. Such an enumeration is named
after the table as the statement spells it. -/
def AlterAction.unnamed? : AlterAction → Option AlterAction
  | .addColumn d => if d.inlineEnum.isSome then none else some (.addColumn d)
  | other => some other

namespace Parser

/-- A column definition, unless it has an enumeration of its own. -/
def unnamedColumn? (d : ColumnDefinition) : Option ColumnDefinition :=
  if d.inlineEnum.isSome then none else some d

/-- Whether a type has an enumeration of its own does not depend on the table. -/
theorem WrittenType.inlineEnum?_isSome (w : WrittenType) (table table' column : String) :
    (w.inlineEnum? table column).isSome = (w.inlineEnum? table' column).isSome := by
  unfold inlineEnum?
  dsimp only
  split <;> rfl

/-- A type has one kind of sizes in every table. -/
theorem WrittenType.sameSizes_of_table (w : WrittenType) (dialect : Dialect)
    (table table' column : String) : TypeMeaning.SameSizes w.sizes
      (w.meaning dialect table column) (w.meaning dialect table' column) := by
  have hsome := w.inlineEnum?_isSome table table' column
  unfold meaning
  -- either both tables give the type an enumeration of its own or neither does
  cases htable : w.inlineEnum? table column with
  | none =>
    rw [htable, Option.isSome_none, eq_comm, Option.isSome_eq_false_iff, Option.isNone_iff_eq_none]
      at hsome
    rw [hsome]
    exact ⟨rfl, rfl⟩
  | some e =>
    rw [htable, Option.isSome_some, eq_comm, Option.isSome_iff_exists] at hsome
    obtain ⟨e', htable'⟩ := hsome
    rw [htable']
    -- its name differs, but an array of one is no text that could have a size
    refine ⟨rfl, ?_⟩
    cases w.arrays with
    | zero => rfl
    | succ n =>
      obtain ⟨element, harray⟩ := exists_array_arrayOf n (.enum e.name)
      obtain ⟨element', harray'⟩ := exists_array_arrayOf n (.enum e'.name)
      dsimp only
      rw [arrayOf, arrayOf, harray, harray']
      rfl

/-- A column without labels is read in one way for every table. -/
theorem alike_column_unnamed (dialect : Dialect) (table table' : String) :
    Alike unnamedColumn? (column dialect table) (column dialect table') := by
  refine .next fun columnName => .next fun written => ?_
  have hsome := written.inlineEnum?_isSome table table' columnName
  cases htable : written.inlineEnum? table columnName with
  | none =>
    rw [htable, Option.isSome_none, eq_comm, Option.isSome_eq_false_iff, Option.isNone_iff_eq_none]
      at hsome
    have hmeaning : written.meaning dialect table columnName =
        written.meaning dialect table' columnName := by
      rw [WrittenType.meaning, WrittenType.meaning, htable, hsome]
    rw [ColumnDraft.start, hmeaning, hsome]
    exact .refl
  | some e =>
    -- only the errors and the tokens that are left count
    have hclauses {d d' : ColumnDraft} (h : d.untyped = d'.untyped) :
        Alike ColumnDraft.untyped (iterate columnClause d) (iterate columnClause d') :=
      .iterate h fun _ _ h => alike_columnClause_untyped h
    refine .bind (hclauses ?_) fun _ _ _ => .pure ?_
    · exact ColumnDraft.untyped_start (written.sameSizes_of_table dialect table table' columnName)
    · rw [htable] at hsome
      exact (if_pos rfl).trans (if_pos hsome.symm).symm

/-- What is added to a table is read in one way for every table, but for labels. -/
theorem alike_addition_unnamed (dialect : Dialect) (table table' : String)
    (constraint : Option String) :
    Alike (Option.map AlterAction.unnamed?) (addition dialect table constraint)
      (addition dialect table' constraint) := by
  have haction {c c' : ColumnDefinition} (h : unnamedColumn? c = unnamedColumn? c') :
      some (AlterAction.addColumn c).unnamed? = some (AlterAction.addColumn c').unnamed? := by
    have hview (c : ColumnDefinition) :
        (AlterAction.addColumn c).unnamed? = (unnamedColumn? c).map AlterAction.addColumn := by
      rw [AlterAction.unnamed?, unnamedColumn?]
      split <;> rfl
    rw [hview, hview, h]
  refine .next fun t => ?_
  split
  · exact .refl
  · exact .refl
  · exact .refl
  · exact .refl
  · exact .refl
  · exact .refl
  -- only a column carries the name of the table
  · exact .next fun _ => .next fun _ => .bind (alike_column_unnamed dialect table table')
      fun _ _ hc => .pure (haction hc)

/-- The parts of a change do not look at the spelling of its table, apart from enumerations. -/
theorem alike_alterElement_unnamed (dialect : Dialect) (table table' : String)
    {actions actions' : List AlterAction}
    (h : actions.map (·.unnamed?) = actions'.map (·.unnamed?)) :
    Alike (stepView (List.map (·.unnamed?))) (alterElement dialect table actions)
      (alterElement dialect table' actions') := by
  have hyield : stepView (List.map (·.unnamed?)) (.yield actions) =
      stepView (List.map (·.unnamed?)) (.yield actions') :=
    congrArg ForInStep.yield h
  have happend {action action' : Option AlterAction}
      (haction : action.map (·.unnamed?) = action'.map (·.unnamed?)) :
      stepView (List.map (·.unnamed?)) (.yield (actions ++ action.toList)) =
        stepView (List.map (·.unnamed?)) (.yield (actions' ++ action'.toList)) := by
    refine congrArg ForInStep.yield ?_
    rw [List.map_append, List.map_append, h, ← Option.toList_map, haction, Option.toList_map]
  refine .next fun t => ?_
  split
  · exact .pure (congrArg ForInStep.done h)
  · exact .next fun _ => .pure hyield
  · exact .next fun _ => .pure hyield
  · exact .next fun _ => .bind (.next fun _ => .ite
      (fun _ => .next fun _ => alike_addition_unnamed dialect table table' _)
      fun _ => .next fun _ => alike_addition_unnamed dialect table table' _)
      fun _ _ haction => .pure (happend haction)
  · exact .next fun _ => .next fun _ => .pure (happend rfl)
  · exact .next fun _ => .pure hyield

end Parser

end Sql

end CrudGen
