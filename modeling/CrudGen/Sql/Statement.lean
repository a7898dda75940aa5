import CrudGen.Catalog.Basic
import CrudGen.Sql.Token

/-!
# Statements

What one statement of a script says, before it meets the others. A reference may name a table that
is declared later, so it is kept as a `PendingForeignKey`.
-/

namespace CrudGen.Sql

/-- Why a statement does not parse. -/
inductive SyntaxError where
  | expected (what : String) (found : Token)
  | endOfStatement
  | unknownColumn (column context : String)
  | missingType (column : String)
  | duplicateColumn (column : String)
  | multiplePrimaryKeys (table : String)
  | noColumns (table : String)
  | invalidNumber (digits : String)
  | emptyColumnList
  deriving DecidableEq, Repr, Inhabited

/-- The wording of an error. -/
def SyntaxError.message : SyntaxError → String
  | .expected what found => "expected " ++ what ++ ", found `" ++ found.text ++ "`"
  | .endOfStatement => "unexpected end of statement"
  | .unknownColumn column context => "unknown column `" ++ column ++ "` in " ++ context
  | .missingType column => "column `" ++ column ++ "` has no type"
  | .duplicateColumn column => "column `" ++ column ++ "` is declared more than once"
  | .multiplePrimaryKeys table => "table `" ++ table ++ "` declares more than one primary key"
  | .noColumns table => "table `" ++ table ++ "` has no columns"
  | .invalidNumber digits => "invalid number `" ++ digits ++ "`"
  | .emptyColumnList => "empty column list"

/-- A reference whose target is not looked up yet. Without `targetColumns` it means the primary key
of the target. -/
structure PendingForeignKey where
  name : Option String
  columns : List String
  targetTable : String
  targetColumns : Option (List String)
  onDelete : ReferentialAction
  onUpdate : ReferentialAction
  deriving DecidableEq, Repr, Inhabited

/-- A column definition with the facts that are kept outside the column. -/
structure ColumnDefinition where
  column : Column
  foreignKey : Option PendingForeignKey
  inlineEnum : Option EnumType
  deriving DecidableEq, Repr, Inhabited

/-- A constraint among the elements of a table. -/
inductive TableConstraint where
  | primaryKey (columns : List String)
  | unique (u : UniqueConstraint)
  | foreignKey (fk : PendingForeignKey)
  | index (i : Index)
  /-- A constraint that says nothing about columns. -/
  | ignored
  deriving DecidableEq, Repr, Inhabited

/-- A `CREATE TABLE` statement. -/
structure TableDefinition where
  table : Table
  foreignKeys : List PendingForeignKey
  inlineEnums : List EnumType
  ifNotExists : Bool
  deriving DecidableEq, Repr, Inhabited

/-- One part of an `ALTER TABLE` statement. -/
inductive AlterAction where
  | addColumn (definition : ColumnDefinition)
  | addForeignKey (fk : PendingForeignKey)
  | addUnique (u : UniqueConstraint)
  | addPrimaryKey (columns : List String)
  | addIndex (i : Index)
  | setDefault (column expression : String)
  deriving DecidableEq, Repr, Inhabited

/-- A statement that changes a table declared elsewhere. -/
inductive TableChange where
  /-- `CREATE INDEX`; an index over expressions has no column set. -/
  | index (table : String) (index : Option Index)
  | alter (table : String) (actions : List AlterAction)
  deriving DecidableEq, Repr, Inhabited

/-- One statement of a script. -/
inductive Statement where
  | createTable (definition : TableDefinition)
  | change (c : TableChange)
  | createSequence (s : Sequence)
  | createEnum (e : EnumType)
  /-- A statement that declares nothing of interest. -/
  | skipped
  deriving DecidableEq, Repr, Inhabited

end CrudGen.Sql
