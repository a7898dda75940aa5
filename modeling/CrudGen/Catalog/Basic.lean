import CrudGen.Catalog.Type
import CrudGen.Text.Case

/-!
# Catalogs

A direct reading of a DDL script: tables with their columns and constraints, sequences, and
enumerations. Derived facts, such as relationships, are not kept here. Names are looked up without
regard to the case of ASCII letters and keep the spelling of their declaration.
-/

namespace CrudGen

/-- What happens to a row when the row it refers to goes or changes. -/
inductive ReferentialAction where
  | noAction | restrict | cascade | setNull | setDefault
  deriving DecidableEq, Repr, Inhabited

/-- An action in its SQL words. -/
def ReferentialAction.sql : ReferentialAction → String
  | .noAction => "NO ACTION"
  | .restrict => "RESTRICT"
  | .cascade => "CASCADE"
  | .setNull => "SET NULL"
  | .setDefault => "SET DEFAULT"

/-- A column of a table. `declaredType` is the type as it was written. -/
structure Column where
  name : String
  declaredType : String
  dataType : SqlType
  nullable : Bool := true
  primaryKey : Bool := false
  unique : Bool := false
  autoIncrement : Bool := false
  default : Option String := none
  length : Option Nat := none
  precision : Option Nat := none
  scale : Option Nat := none
  comment : Option String := none
  deriving DecidableEq, Repr, Inhabited

/-- A reference from columns of a table to as many columns of a table. -/
structure ForeignKey where
  name : Option String
  columns : List String
  targetTable : String
  targetColumns : List String
  onDelete : ReferentialAction
  onUpdate : ReferentialAction
  deriving DecidableEq, Repr, Inhabited

/-- Columns whose values together occur once. -/
structure UniqueConstraint where
  name : Option String
  columns : List String
  deriving DecidableEq, Repr, Inhabited

/-- An index over columns. -/
structure Index where
  name : Option String
  columns : List String
  unique : Bool
  deriving DecidableEq, Repr, Inhabited

/-- A table; columns and constraints stand in declaration order. -/
structure Table where
  name : String
  columns : List Column := []
  primaryKey : List String := []
  foreignKeys : List ForeignKey := []
  uniques : List UniqueConstraint := []
  indexes : List Index := []
  deriving DecidableEq, Repr, Inhabited

/-- A number generator. `ownedBy` names the table and the column it belongs to. -/
structure Sequence where
  name : String
  start : Option Int := none
  increment : Option Int := none
  ownedBy : Option (String × String) := none
  deriving DecidableEq, Repr, Inhabited

/-- An enumeration with its labels in order. -/
structure EnumType where
  name : String
  labels : List String
  deriving DecidableEq, Repr, Inhabited

/-- Everything a script declares. -/
structure Catalog where
  tables : List Table := []
  sequences : List Sequence := []
  enums : List EnumType := []
  deriving DecidableEq, Repr, Inhabited

open Text (sameName)

namespace Table

/-- The column of a name. -/
def column? (t : Table) (name : String) : Option Column :=
  t.columns.find? fun c => sameName c.name name

/-- Whether the table has a column of that name. -/
def hasColumn (t : Table) (name : String) : Bool :=
  (t.column? name).isSome

/-- Column names in their declared spelling; the first one that is unknown is the error. -/
def declaredColumns (t : Table) : List String → Except String (List String)
  | [] => .ok []
  | name :: rest =>
    match t.column? name with
    | none => .error name
    | some c => (t.declaredColumns rest).map (c.name :: ·)

/-- The columns that take part in a foreign key, each once. -/
def foreignKeyColumns (t : Table) : List String :=
  (t.foreignKeys.flatMap (·.columns)).foldl
    (fun seen c => if seen.contains c then seen else seen ++ [c]) []

/-- Whether a column takes part in a foreign key. -/
def isForeignKeyColumn (t : Table) (column : String) : Bool :=
  t.foreignKeys.any fun fk => fk.columns.contains column

/-- Whether a column takes part in the primary key. -/
def isPrimaryKeyColumn (t : Table) (column : String) : Bool :=
  t.primaryKey.contains column

/-- Whether exactly these columns, in any order, are declared unique: by a column's own clause, as
the primary key, by a constraint or by an index. -/
def isUniqueSet (t : Table) (columns : List String) : Bool :=
  let same (other : List String) : Bool :=
    other.length == columns.length && other.all columns.contains
  let flagged : Bool :=
    match columns with
    | [single] => (t.column? single).any (·.unique)
    | _ => false
  flagged || (!t.primaryKey.isEmpty && same t.primaryKey)
    || t.uniques.any (fun u => same u.columns)
    || t.indexes.any (fun i => i.unique && same i.columns)

end Table

/-- The table of a name. -/
def Catalog.table? (c : Catalog) (name : String) : Option Table :=
  c.tables.find? fun t => sameName t.name name

end CrudGen
