import CrudGen.Server.Python.Basic

/-!
# Models in Python

The class of a row: its columns and its relations to other classes.
-/

namespace CrudGen.Python

open Code

/-- The class that models extend. -/
def Framework.base : Framework → String
  | .fastApi => "Base"
  | .flask => "db.Model"

/-- The import of what models extend. -/
def Framework.baseImport : Framework → String
  | .fastApi => "from app.database import Base"
  | .flask => "from app.extensions import db"

/-- The name of a column type in the library. -/
def columnTypeName : SqlType → String
  | .smallInt => "SmallInteger"
  | .integer => "Integer"
  | .bigInt => "BigInteger"
  | .decimal => "Numeric"
  | .real => "Float"
  | .double => "Double"
  | .boolean => "Boolean"
  | .char | .varchar => "String"
  | .text => "Text"
  | .date => "Date"
  | .time => "Time"
  | .timestamp | .timestampTz => "DateTime"
  | .interval => "Interval"
  | .uuid => "Uuid"
  | .json => "JSON"
  | .binary => "LargeBinary"
  | .enum _ | .unknown _ => "String"
  | .array _ => "ARRAY"

/-- A column type with its arguments. -/
def columnType (type : TargetType) : SqlType → String
  | .array element => "ARRAY(" ++ columnType type element ++ ")"
  | .decimal =>
    match type.precision, type.scale with
    | some p, some s => s!"Numeric({p}, {s})"
    | some p, none => s!"Numeric({p})"
    | none, _ => "Numeric"
  | .timestampTz => "DateTime(timezone=True)"
  | .char | .varchar =>
    match type.length with
    | some n => s!"String({n})"
    | none => "String"
  | scalar => columnTypeName scalar

/-- What a column type needs from the library. -/
def columnTypeNeeds : SqlType → List String
  | .array element => "ARRAY" :: columnTypeNeeds element
  | scalar => [columnTypeName scalar]

/-- The imports of column types, with the arrays of one database apart from all others. -/
def columnTypeImports (needs : List String) : Code :=
  let plain := (ascending needs).filter (· != "ARRAY")
  all [
    when (!plain.isEmpty) ["from sqlalchemy import " ++ commas plain],
    when (needs.contains "ARRAY") ["from sqlalchemy.dialects.postgresql import ARRAY"]]

/-- The foreign key that is a column alone. -/
def reference? (e : Entity) (f : Field) : Option ForeignKey :=
  e.table.foreignKeys.find? (·.columns == [f.column])

/-- What a column needs from the library. -/
def columnNeeds (e : Entity) (f : Field) : List String :=
  columnTypeNeeds f.sqlType
    ++ (if (reference? e f).isSome then ["ForeignKey"] else [])
    ++ (if f.default.isSome then ["text"] else [])

/-- How a column refers to another table. Keys on a circle are added after the tables. -/
def foreignKey (b : Blueprint) (e : Entity) (key : ForeignKey) : String :=
  let circular := b.schema.isDeferred e.table.name && b.schema.isDeferred key.targetTable
  "ForeignKey(" ++ literal (key.targetTable ++ "." ++ key.targetColumns.headD "")
    ++ (if circular then ", use_alter=True)" else ")")

/-- The member of a column. -/
def columnMember (b : Blueprint) (e : Entity) (f : Field) : String :=
  let option (condition : Bool) (text : String) : List String := if condition then [text] else []
  let args :=
    [literal f.column, columnType f.type f.sqlType]
      ++ ((reference? e f).toList.map (foreignKey b e))
      ++ option f.primaryKey "primary_key=True"
      ++ option f.autoIncrement "autoincrement=True"
      ++ option (f.unique && !f.primaryKey) "unique=True"
      ++ option f.type.nullable "nullable=True"
      ++ (f.default.toList.map fun d => "server_default=text(" ++ literal d ++ ")")
      ++ (f.comment.toList.map fun c => "comment=" ++ literal c)
  ident f.name ++ s!": Mapped[{f.type.name}] = mapped_column(" ++ commas args ++ ")"

/-- The member of a relation. -/
def relationMember (b : Blueprint) (e : Entity) (r : Relation) : String :=
  let other := r.targetEntity
  let type := if r.kind.isCollection then s!"list[{other}]" else s!"Optional[{other}]"
  let columns (name entity table : String) (columns : List String) : String :=
    name ++ "=" ++ literal ("[" ++ commas (columns.map fun c =>
      entity ++ "." ++ ident (b.fieldName table c)) ++ "]")
  let joined :=
    match r.via, r.inverse with
    | some junction, _ => ["secondary=" ++ literal junction.table]
    | none, false =>
      columns "foreign_keys" e.names.entity e.table.name r.localColumns
        :: (if r.targetTable == e.table.name then
          [columns "remote_side" other r.targetTable r.remoteColumns] else [])
    | none, true => [columns "foreign_keys" other r.targetTable r.remoteColumns]
  let args :=
    [literal other]
      ++ ((b.counterpart? e r).toList.map fun back =>
        "back_populates=" ++ literal (ident back.name))
      ++ joined
      ++ (if r.kind == .oneToOne then ["uselist=False"] else [])
  ident r.name ++ s!": Mapped[{type}] = relationship(" ++ commas args ++ ")"

/-- The module of a model. Other models are imported for annotations alone. -/
def modelModule (framework : Framework) (b : Blueprint) (e : Entity) : List Code :=
  let optional := e.fields.any (·.type.nullable) || e.relations.any fun r => !r.kind.isCollection
  [ "from __future__ import annotations",
    "",
    ofLines (typeImports b e.fields),
    "from typing import TYPE_CHECKING" ++ (if optional then ", Optional" else ""),
    "",
    columnTypeImports (e.fields.flatMap (columnNeeds e)),
    "from sqlalchemy.orm import Mapped, mapped_column"
      ++ (if e.relations.isEmpty then "" else ", relationship"),
    "",
    framework.baseImport,
    when (!e.neighbours.isEmpty) [
      "",
      suite "if TYPE_CHECKING" [
        each e.neighbours fun (file, entity) => [
          "from app.models." ++ ident file ++ s!" import {entity}"]]],
    "",
    "",
    suite (s!"class {e.names.entity}(" ++ framework.base ++ ")") [
      "__tablename__ = " ++ literal e.table.name,
      "",
      each e.fields fun f => [columnMember b e f],
      when (!e.relations.isEmpty) [
        "",
        each e.relations fun r => [relationMember b e r]]] ]

/-! ### Junctions

Junction tables are plain tables, so that relations may name them.
-/

/-- What tables are registered with. -/
def Framework.metadata : Framework → String
  | .fastApi => "Base.metadata"
  | .flask => "db.metadata"

/-- The column of a junction. -/
def junctionColumn (b : Blueprint) (t : Table) (c : Column) : String :=
  let type := columnType (TargetType.ofColumn b.profile.toConventions c) c.dataType
  let reference (key : ForeignKey) : Option String :=
    ((key.columns.zip key.targetColumns).lookup c.name).map fun target =>
      ", ForeignKey(" ++ literal s!"{key.targetTable}.{target}" ++ ", ondelete="
        ++ literal key.onDelete.sql ++ ")"
  let key := (t.foreignKeys.find? (·.columns.contains c.name)).bind reference
  "Column(" ++ literal c.name ++ s!", {type}" ++ key.getD ""
    ++ (if t.isPrimaryKeyColumn c.name then ", primary_key=True" else "") ++ "),"

/-- The table of a junction. -/
def junctionTable (framework : Framework) (b : Blueprint) (t : Table) : List Code := [
  "",
  s!"{t.name} = Table(",
  indent "    " [
    literal t.name ++ ",",
    framework.metadata ++ ",",
    each t.columns fun c => [junctionColumn b t c]],
  ")"]

/-- The module of all junctions. -/
def associationModule (framework : Framework) (b : Blueprint) : List Code :=
  let junctions := (b.schema.classified.filter (·.2 == .junction)).map (·.1)
  let needs := junctions.flatMap fun t => t.columns.flatMap fun c => columnTypeNeeds c.dataType
  [ "\"\"\"Many-to-many link tables.\"\"\"",
    "",
    columnTypeImports (["Column", "ForeignKey", "Table"] ++ needs),
    "",
    framework.baseImport,
    "",
    "__all__ = [" ++ commas (junctions.map fun t => literal t.name) ++ "]",
    each junctions (junctionTable framework b) ]

end CrudGen.Python
