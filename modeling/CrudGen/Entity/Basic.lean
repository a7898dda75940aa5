import CrudGen.Schema.Basic
import CrudGen.Target.Profile
import CrudGen.Target.TypeMap

/-!
# Entities

An `Entity` is a table as a target sees it: its names, its fields with their types, and its
relations to other entities.

Each entity has a name for every use in generated code. Two tables may have one name in the
singular; `NameTable.assign` numbers the later one, so that the names of any two entities differ.
-/

namespace CrudGen

open Naming

/-- What an entity is called: its type, its file, its segment in a URL, its table, its constant, and
members that hold one or several of it. -/
structure EntityNames where
  entity : String
  file : String
  route : String
  table : String
  constant : String
  single : String
  collection : String
  deriving DecidableEq, Repr, Inhabited

namespace EntityNames

/-- The names that a table gives an entity. -/
def ofTable (p : Profile) (table : String) : EntityNames where
  entity := p.mapName table .entity
  file := p.mapName table .file
  route := p.mapName table .route
  table := p.mapName table .table
  constant := p.mapName (singularSnake table) .constant
  single := p.mapName (singularSnake table) .field
  collection := p.mapName (pluralSnake table) .field

/-- The names with a number behind them. The database table keeps its name. -/
def numbered (p : Profile) (table : String) (n : Nat) : EntityNames :=
  { ofTable p (Casing.toSnake table ++ "_" ++ toString n) with table := p.mapName table .table }

/-- Whether two entities share a name. -/
def clashes (a b : EntityNames) : Bool :=
  a.entity == b.entity || a.file == b.file || a.route == b.route || a.constant == b.constant
    || a.single == b.single || a.collection == b.collection

/-- The names of a table next to those that are taken: the plain ones if they are free, and
otherwise the ones with the least number from two on that are. A taken entity rules out at most one
number by each of its six names, so one of `6 * taken.length + 1` numbers is free. -/
def free (p : Profile) (taken : List EntityNames) (table : String) : EntityNames :=
  let plain := ofTable p table
  if !taken.any plain.clashes then plain
  else
    let numbers := List.range' 2 (6 * taken.length + 1)
    let least := numbers.find? fun n => !taken.any (numbered p table n).clashes
    numbered p table (least.getD 2)

end EntityNames

/-- The names of the entities of a schema, by table. -/
structure NameTable where
  names : List (String × EntityNames) := []
  deriving DecidableEq, Repr, Inhabited

namespace NameTable

/-- Names the entities of a schema in generation order. -/
def assign (s : Schema) (p : Profile) : NameTable where
  names := s.orderedEntities.foldl
    (fun names t => names ++ [(t.name, EntityNames.free p (names.map (·.2)) t.name)]) []

/-- The names of a table. -/
def get? (t : NameTable) (table : String) : Option EntityNames :=
  t.names.lookup table

/-- The names of a table, which are the plain ones if it has none assigned. -/
def resolve (t : NameTable) (p : Profile) (table : String) : EntityNames :=
  (t.get? table).getD (EntityNames.ofTable p table)

end NameTable

/-- A column as a member of an entity. `references` is a table that the column refers to. -/
structure Field where
  column : String
  name : String
  type : TargetType
  sqlType : SqlType
  primaryKey : Bool
  autoIncrement : Bool
  unique : Bool
  default : Option String
  references : Option String
  comment : Option String
  deriving DecidableEq, Repr, Inhabited

namespace Field

/-- Whether the database fills the field in, so that it is no input. -/
def isGenerated (f : Field) : Bool :=
  f.autoIncrement

/-- Whether a new row has to come with a value of the field. -/
def isRequiredInput (f : Field) : Bool :=
  !f.isGenerated && !f.type.nullable && f.default.isNone

end Field

/-- The junction of a relation: its columns that refer to this entity and to the other one. -/
structure Link where
  table : String
  localColumns : List String
  remoteColumns : List String
  deriving DecidableEq, Repr, Inhabited

/-- A relation as a member of an entity. `kind` is the one that this entity sees, `localColumns` and
`remoteColumns` are the columns of the two entities that are joined, `inverse` holds if the other
entity is the owner, and `deferred` if it is not certain to be generated earlier. -/
structure Relation where
  kind : RelationKind
  name : String
  targetTable : String
  targetEntity : String
  targetFile : String
  localColumns : List String
  remoteColumns : List String
  via : Option Link
  inverse : Bool
  deferred : Bool
  deriving DecidableEq, Repr, Inhabited

/-- Whether this side of a relation has the foreign key. -/
def Relation.holdsKey (r : Relation) : Bool :=
  !r.inverse && (r.kind == .manyToOne || r.kind == .oneToOne)

/-- A table as a target sees it. `deferred` holds if it lies on a circle of foreign keys. -/
structure Entity where
  table : Table
  names : EntityNames
  fields : List Field
  relations : List Relation
  deferred : Bool
  deriving DecidableEq, Repr, Inhabited

namespace Entity

/-- The fields of the primary key. -/
def keyFields (e : Entity) : List Field :=
  e.fields.filter (·.primaryKey)

/-- The fields that a new row may come with. -/
def inputFields (e : Entity) : List Field :=
  e.fields.filter fun f => !f.isGenerated

/-- The field of a column. -/
def field? (e : Entity) (column : String) : Option Field :=
  e.fields.find? (·.column == column)

/-- The field that marks a row as deleted. -/
def softDeleteField? (e : Entity) : Option Field :=
  e.fields.find? fun f => f.column == "deleted_at" && f.type.nullable

end Entity

end CrudGen
