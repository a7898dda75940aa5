import CrudGen.Proofs.Catalog.Untyped
import CrudGen.Proofs.Data.Except
import CrudGen.Proofs.Sql.Clauses
import CrudGen.Proofs.Sql.Entries

/-!
# Statements — what a dialect decides

A dialect is asked for nothing but the type of a column. The type decides which sizes are kept and
whether there is a counter, and for this a dialect makes no difference. Statements that are read in
two dialects are therefore the same up to the types of their columns.

Main results:

* `WrittenType.sameSizes_meaning` — a type means different things in two dialects only where sizes
  and counters are the same.
* `TableDraft.definition_untyped` — a table is put together without a look at types.
* `Statement.parse_untyped` — what parses in one dialect parses in another, and says the same.
-/

namespace CrudGen.Sql

-- ---------------------------------------------------------------------------
-- Type names
-- ---------------------------------------------------------------------------

/-- Two meanings of a type with these parameters differ in the type only. -/
structure TypeMeaning.SameSizes (args : List Nat) (m m' : TypeMeaning) : Prop where
  autoIncrement : m.autoIncrement = m'.autoIncrement
  sizes : TypeSizes.ofArgs m.dataType args = TypeSizes.ofArgs m'.dataType args

/-- A choice between two types of one kind may fall either way. -/
theorem TypeMeaning.sameSizes_ite {args : List Nat} {c c' : Prop} [Decidable c] [Decidable c']
    {t u : SqlType} (h : TypeSizes.ofArgs t args = TypeSizes.ofArgs u args) :
    SameSizes args { dataType := if c then t else u } { dataType := if c' then t else u } := by
  refine ⟨rfl, ?_⟩
  dsimp only
  split <;> split <;> simp only [h]

/-- A name has one kind of sizes in all dialects, if it has any. -/
theorem TypeMeaning.sameSizes_ofName (name : String) (args : List Nat) (d d' : Dialect) :
    SameSizes args (ofName name args d) (ofName name args d') := by
  unfold ofName
  dsimp only
  split
  -- the dialect decides between types of one kind, for `float` only where there is no size
  all_goals first
    | exact ⟨rfl, rfl⟩
    | exact sameSizes_ite rfl
    | cases args with
      | nil => exact sameSizes_ite rfl
      | cons size rest => exact ⟨rfl, rfl⟩

/-- Arrays of an array are an array. -/
theorem exists_array_arrayOf (n : Nat) (t : SqlType) :
    ∃ element, Parser.arrayOf n (.array t) = .array element := by
  induction n generalizing t with
  | zero => exact ⟨t, rfl⟩
  | succ n ih => exact ih (.array t)

/-- A type that is written means different things in two dialects only where sizes and counters are
the same. -/
theorem Parser.WrittenType.sameSizes_meaning (w : WrittenType) (d d' : Dialect)
    (table column : String) : TypeMeaning.SameSizes w.sizes (w.meaning d table column)
      (w.meaning d' table column) := by
  unfold meaning
  cases w.inlineEnum? table column with
  | some e => exact ⟨rfl, rfl⟩
  | none =>
    have hname := TypeMeaning.sameSizes_ofName (" ".intercalate w.words) w.sizes d d'
    cases w.arrays with
    | zero => exact hname
    | succ n =>
      -- arrays have no sizes, whatever they are of
      have hnone (t : SqlType) : TypeSizes.ofArgs (arrayOf (n + 1) t) w.sizes = {} := by
        obtain ⟨element, harray⟩ := exists_array_arrayOf n t
        rw [arrayOf, harray]
        rfl
      exact ⟨hname.autoIncrement, (hnone _).trans (hnone _).symm⟩

-- ---------------------------------------------------------------------------
-- Statements without types
-- ---------------------------------------------------------------------------

/-- A column definition without the type. -/
def ColumnDefinition.untyped (d : ColumnDefinition) : ColumnDefinition :=
  { d with column := d.column.untyped }

/-- A table definition without the types of its columns. -/
def TableDefinition.untyped (d : TableDefinition) : TableDefinition :=
  { d with table := d.table.untyped }

/-- An action without the type of a column that it adds. -/
def AlterAction.untyped : AlterAction → AlterAction
  | .addColumn d => .addColumn d.untyped
  | other => other

/-- A change without the types of the columns that it adds. -/
def TableChange.untyped : TableChange → TableChange
  | .alter table actions => .alter table (actions.map AlterAction.untyped)
  | other => other

/-- A statement without the types of its columns. -/
def Statement.untyped : Statement → Statement
  | .createTable d => .createTable d.untyped
  | .change c => .change c.untyped
  | other => other

namespace Parser

/-- A draft without the type of its column. -/
def ColumnDraft.untyped (d : ColumnDraft) : ColumnDraft :=
  d.change Column.untyped

/-- A draft without the types of its columns. -/
def TableDraft.untyped (d : TableDraft) : TableDraft :=
  { d with columns := d.columns.map Column.untyped }

-- ---------------------------------------------------------------------------
-- Columns
-- ---------------------------------------------------------------------------

/-- A clause of a column does not see its type. -/
theorem alike_columnClause_untyped {d d' : ColumnDraft} (h : d.untyped = d'.untyped) :
    Alike (stepView ColumnDraft.untyped) (columnClause d) (columnClause d') := by
  -- no clause looks at the type
  have happly (c : Clause) (d : ColumnDraft) : (c.apply d).untyped = c.apply d.untyped := by
    cases c <;> rfl
  refine alike_columnClause (congrArg (·.column.name) h) h fun c => ?_
  rw [happly, happly, h]

/-- Columns of the same sizes start alike. -/
theorem ColumnDraft.untyped_start {d d' : Dialect} {table table' columnName : String}
    {written : WrittenType} (h : TypeMeaning.SameSizes written.sizes
      (written.meaning d table columnName) (written.meaning d' table' columnName)) :
    (start d table columnName written).untyped = (start d' table' columnName written).untyped := by
  simp only [start, untyped, change, Column.untyped, h.autoIncrement, h.sizes]

/-- A column is read in one way in all dialects, but for its type. -/
theorem alike_column (d d' : Dialect) (table : String) :
    Alike ColumnDefinition.untyped (column d table) (column d' table) := by
  refine .next fun columnName => .next fun written => .bind
    (.iterate ?_ fun _ _ h => alike_columnClause_untyped h) fun _ _ h => .pure ?_
  · exact ColumnDraft.untyped_start (written.sameSizes_meaning d d' table columnName)
  · exact congrArg (fun d : ColumnDraft => ({
      column := d.column
      foreignKey := d.foreignKey
      inlineEnum := written.inlineEnum? table columnName } : ColumnDefinition)) h

-- ---------------------------------------------------------------------------
-- Tables
-- ---------------------------------------------------------------------------

/-- A column is added without types as with them. -/
theorem TableDraft.addColumn_untyped (d : TableDraft) (c : ColumnDefinition) :
    d.untyped.addColumn c.untyped = (d.addColumn c).map TableDraft.untyped := by
  have hany : d.untyped.columns.any (fun other => Text.sameName other.name c.untyped.column.name) =
      d.columns.any fun other => Text.sameName other.name c.column.name :=
    List.any_map
  rw [addColumn, addColumn, hany]
  split
  · rfl
  · refine congrArg Except.ok ?_
    rw [untyped, untyped, List.map_append]
    rfl

/-- An entry without the type of its column. -/
def Entry.untyped : Entry → Entry
  | .column c => .column c.untyped
  | other => other

theorem TableDraft.enter_untyped (d : TableDraft) (e : Entry) :
    d.untyped.enter e.untyped = (d.enter e).map TableDraft.untyped := by
  cases e with
  | column c => exact d.addColumn_untyped c
  | constraint | skipped => rfl

/-- An element is read in one way in all dialects, but for types. -/
theorem alike_entryFrom (dialect dialect' : Dialect) (table : String) (t : Token) :
    Alike Entry.untyped (entryFrom dialect table t) (entryFrom dialect' table t) := by
  have hcolumn : Alike Entry.untyped (columnEntry dialect table) (columnEntry dialect' table) :=
    .bind (alike_column dialect dialect' table) fun _ _ hc => .pure (congrArg Entry.column hc)
  unfold entryFrom
  split
  · exact .refl
  · exact .refl
  · exact .refl
  · exact .refl
  · exact .refl
  · exact .next fun _ => .ite (fun _ => .refl) fun _ => hcolumn
  · exact .next fun _ => .ite (fun _ => .refl) fun _ => hcolumn
  · exact .ite (fun _ => .refl) fun _ => hcolumn

theorem alike_tableElement_untyped (dialect dialect' : Dialect) (table : String)
    {d d' : TableDraft} (h : d.untyped = d'.untyped) :
    Alike (stepView TableDraft.untyped) (tableElement dialect table d)
      (tableElement dialect' table d') := by
  refine alike_tableElement h fun t => .bind (alike_entryFrom dialect dialect' table t)
    fun e e' he => alike_entering ?_
  rw [← TableDraft.enter_untyped, ← TableDraft.enter_untyped, h, he]

/-- Columns may be required without types. -/
theorem requireColumns_untyped (t : Table) (columns : List String) (context : String) :
    requireColumns t.untyped columns context = requireColumns t columns context := by
  rw [requireColumns, Table.declaredColumns_untyped, requireColumns]

/-- A constraint is applied without types as with them. -/
theorem applyConstraint_untyped (s : Table × List PendingForeignKey) (c : TableConstraint) :
    applyConstraint (s.map Table.untyped id) c =
      (applyConstraint s c).map (Prod.map Table.untyped id) := by
  obtain ⟨t, fks⟩ := s
  -- columns are looked up by name, which types have no part in
  cases c with
  | primaryKey columns =>
    simp only [applyConstraint, Prod.map_apply, requireColumns_untyped]
    cases requireColumns t columns "PRIMARY KEY" with
    | error e => rfl
    | ok found => cases hkey : t.primaryKey.isEmpty <;> simp [hkey, Table.untyped] <;> rfl
  | unique u =>
    simp only [applyConstraint, Prod.map_apply, requireColumns_untyped]
    cases requireColumns t u.columns "UNIQUE" <;> rfl
  | foreignKey fk =>
    simp only [applyConstraint, Prod.map_apply, requireColumns_untyped]
    cases requireColumns t fk.columns "FOREIGN KEY" <;> rfl
  | index i =>
    simp only [applyConstraint, Prod.map_apply, requireColumns_untyped]
    cases requireColumns t i.columns "INDEX" <;> rfl
  | ignored => rfl

/-- A table is put together without a look at types. -/
theorem TableDraft.definition_untyped (d : TableDraft) (table : String) (ifNotExists : Bool) :
    d.untyped.definition table ifNotExists =
      (d.definition table ifNotExists).map TableDefinition.untyped := by
  have hempty : d.untyped.columns.isEmpty = d.columns.isEmpty := List.isEmpty_map
  have hkey : (d.untyped.columns.filter (·.primaryKey)).map (·.name) =
      (d.columns.filter (·.primaryKey)).map (·.name) := by
    rw [untyped, List.filter_map, List.map_map]
    rfl
  rw [definition, definition, hempty, hkey]
  generalize (d.columns.filter (·.primaryKey)).map (·.name) = key
  -- the constraints are applied to the columns without types
  have happlied : d.untyped.constraints.foldlM applyConstraint
      ({ name := table, columns := d.untyped.columns, primaryKey := key }, d.untyped.foreignKeys) =
        (d.constraints.foldlM applyConstraint
          ({ name := table, columns := d.columns, primaryKey := key }, d.foreignKeys)).map
            (Prod.map Table.untyped id) := by
    have hview := foldlM_view (g := id) applyConstraint_untyped d.constraints
      ({ name := table, columns := d.columns, primaryKey := key }, d.foreignKeys)
    rwa [List.map_id] at hview
  dsimp only
  rw [happlied]
  generalize d.constraints.foldlM applyConstraint
    ({ name := table, columns := d.columns, primaryKey := key }, d.foreignKeys) = applied
  split
  · rfl
  · split
    · rfl
    · cases applied with
      | error e => rfl
      | ok s =>
        refine congrArg Except.ok ?_
        simp only [Prod.map, id_eq, TableDefinition.untyped, ← Table.markPrimaryKey_untyped]
        rfl

/-- A table is read in one way in all dialects, but for types. -/
theorem alike_createTable (d d' : Dialect) :
    Alike Statement.untyped (createTable d) (createTable d') := by
  refine .next fun ifNotExists => .next fun table => .next fun opened => .ite (fun _ => ?_)
    fun _ => .refl
  refine .bind (.iterate rfl fun _ _ h => alike_tableElement_untyped d d' table h) fun e e' he => ?_
  have hdefinition : (e.definition table ifNotExists).map TableDefinition.untyped =
      (e'.definition table ifNotExists).map TableDefinition.untyped := by
    rw [← TableDraft.definition_untyped, he, TableDraft.definition_untyped]
  exact .bind (.lift hdefinition) fun t t' ht => .pure (congrArg Statement.createTable ht)

-- ---------------------------------------------------------------------------
-- Other statements
-- ---------------------------------------------------------------------------

theorem alike_create (d d' : Dialect) :
    Alike Statement.untyped (create d) (create d') := by
  refine .next fun _ => .next fun t => ?_
  split
  · exact .next fun _ => alike_createTable d d'
  · exact .refl
  · exact .refl
  · exact .refl
  · exact .refl

theorem alike_addition (d d' : Dialect) (table : String) (constraint : Option String) :
    Alike (Option.map AlterAction.untyped) (addition d table constraint)
      (addition d' table constraint) := by
  refine .next fun t => ?_
  split
  · exact .refl
  · exact .refl
  · exact .refl
  · exact .refl
  · exact .refl
  · exact .refl
  · exact .next fun _ => .next fun _ => .bind (alike_column d d' table) fun c c' hc =>
      .pure (congrArg (fun c => some (AlterAction.addColumn c)) hc)

theorem alike_alterAdd (d d' : Dialect) (table : String) :
    Alike (Option.map AlterAction.untyped) (alterAdd d table) (alterAdd d' table) :=
  .next fun _ => .ite (fun _ => .next fun _ => alike_addition d d' table _) fun _ =>
    .next fun _ => alike_addition d d' table _

theorem alike_alterElement (d d' : Dialect) (table : String) {actions actions' : List AlterAction}
    (h : actions.map AlterAction.untyped = actions'.map AlterAction.untyped) :
    Alike (stepView (List.map AlterAction.untyped)) (alterElement d table actions)
      (alterElement d' table actions') := by
  have hyield : stepView (List.map AlterAction.untyped) (.yield actions) =
      stepView (List.map AlterAction.untyped) (.yield actions') :=
    congrArg ForInStep.yield h
  -- an action that is added is added on both sides
  have happend {action action' : Option AlterAction}
      (haction : action.map AlterAction.untyped = action'.map AlterAction.untyped) :
      stepView (List.map AlterAction.untyped) (.yield (actions ++ action.toList)) =
        stepView (List.map AlterAction.untyped) (.yield (actions' ++ action'.toList)) := by
    refine congrArg ForInStep.yield ?_
    rw [List.map_append, List.map_append, h, ← Option.toList_map, haction, Option.toList_map]
  refine .next fun t => ?_
  split
  · exact .pure (congrArg ForInStep.done h)
  · exact .next fun _ => .pure hyield
  · exact .next fun _ => .pure hyield
  · exact .next fun _ => .bind (alike_alterAdd d d' table) fun _ _ haction =>
      .pure (happend haction)
  · exact .next fun _ => .next fun _ => .pure (happend rfl)
  · exact .next fun _ => .pure hyield

theorem alike_alter (d d' : Dialect) : Alike Statement.untyped (alter d) (alter d') := by
  refine .next fun _ => .ite (fun _ => ?_) fun _ => .refl
  refine .next fun _ => .next fun _ => .next fun table => .bind
    (.iterate rfl fun _ _ h => alike_alterElement d d' table h) fun _ _ h => .pure ?_
  exact congrArg (fun actions => Statement.change (.alter table actions)) h

theorem alike_statement (d d' : Dialect) :
    Alike Statement.untyped (statement d) (statement d') := by
  refine .next fun t => ?_
  split
  · exact .next fun _ => alike_create d d'
  · exact .next fun _ => alike_alter d d'
  · exact .refl

end Parser

/-- **Statements.** What parses in one dialect parses in another, and says the same apart from the
types of columns; what does not parse is the same error. -/
theorem Statement.parse_untyped (d d' : Dialect) (tokens : List Token) :
    (Statement.parse d tokens).map untyped = (Statement.parse d' tokens).map untyped := by
  have h := Parser.alike_statement d d' tokens
  change (((Parser.statement d).run tokens).map (·.1)).map untyped =
    (((Parser.statement d').run tokens).map (·.1)).map untyped
  change Parser.LooksAlike untyped ((Parser.statement d).run tokens)
    ((Parser.statement d').run tokens) at h
  generalize (Parser.statement d).run tokens = x at h
  generalize (Parser.statement d').run tokens = y at h
  cases h with
  | error e => rfl
  | ok hsame => exact congrArg Except.ok hsame

end CrudGen.Sql
