import CrudGen.Server.Blueprint
import CrudGen.Server.Code
import CrudGen.Server.Statements

/-!
# Rust sources

Names, literals and primary keys as they are written in Rust; the structure of a row, and the
structures that rows are created and changed with.
-/

namespace CrudGen.Rust

open Code

/-- The web frameworks that Rust servers are generated for. -/
inductive Framework where
  | axum | actix
  deriving DecidableEq, Repr, Inhabited

/-- Words that are no names. -/
def keywords : List String :=
  ["as", "async", "await", "break", "const", "continue", "crate", "dyn", "else", "enum",
    "extern", "false", "fn", "for", "if", "impl", "in", "let", "loop", "match", "mod", "move",
    "mut", "pub", "ref", "return", "static", "struct", "super", "trait", "true", "type",
    "unsafe", "use", "where", "while", "gen", "yield", "abstract", "final", "override", "macro",
    "priv", "try", "typeof", "virtual"]

/-- A name, marked as one if it is a keyword. -/
def ident (name : String) : String :=
  if keywords.contains name then "r#" ++ name else name

/-- SQL text as a raw string literal. -/
def raw (sql : String) : String :=
  "r#\"" ++ sql ++ "\"#"

/-- A block with four blanks to a step. -/
def block (head : String) (body : List Code) (tail : String := "") : Code :=
  Code.block "    " head body tail

/-- Blocks on common lines with four blanks to a step. -/
def blocks (branches : List (String × List Code)) (tail : String := "") : Code :=
  Code.blocks "    " branches tail

/-- The fields of a primary key. -/
structure Key where
  fields : List Field

namespace Key

/-- The key of an entity. -/
def ofEntity (e : Entity) : Key :=
  ⟨e.keyFields⟩

/-- Whether there is a primary key. -/
def exists? (k : Key) : Bool :=
  !k.fields.isEmpty

/-- The members of a key as names. -/
def names (k : Key) : List String :=
  k.fields.map fun f => ident f.name

/-- The key as parameters of a function. -/
def params (k : Key) : String :=
  ", ".intercalate (k.fields.map fun f => ident f.name ++ ": " ++ f.type.inner)

/-- The key as arguments of a call. -/
def args (k : Key) : String :=
  ", ".intercalate k.names

/-- Binds the key to the parameters of a statement. -/
def binds (k : Key) : String :=
  String.join (k.names.map fun n => ".bind(" ++ n ++ ")")

/-- One text alone, or several in parentheses. -/
def tuple : List String → String
  | [single] => single
  | several => "(" ++ ", ".intercalate several ++ ")"

/-- The type of a key. -/
def tupleType (k : Key) : String :=
  tuple (k.fields.map (·.type.inner))

/-- The pattern that takes a key apart. -/
def tuplePattern (k : Key) : String :=
  tuple k.names

/-- The expression for the text under which a row is cached. -/
def cacheKey (k : Key) : String :=
  "format!(\"" ++ "/".intercalate (k.fields.map fun _ => "\x7b\x7d") ++ "\", " ++ k.args ++ ")"

end Key

/-- Whether rows of an entity can be changed through its key. -/
def isUpdatable (e : Entity) : Bool :=
  (Key.ofEntity e).exists? && !e.inputFields.isEmpty

/-- The import of the structures that rows are created and changed with. -/
def inputImport (e : Entity) : String :=
  let name := e.names.entity
  s!"use crate::dto::{e.names.file}::\x7bCreate{name}, Update{name}\x7d;"

/-- The import of the structure of a row. -/
def rowImport (e : Entity) : String :=
  s!"use crate::models::{e.names.file}::{e.names.entity};"

/-- A member of a row. Its column is named when the member is called otherwise. -/
def rowMember (f : Field) : List Code := [
  whenSome f.comment fun comment => [s!"/// {comment}"],
  when (f.name != f.column) [s!"#[sqlx(rename = \"{f.column}\")]"],
  "pub " ++ ident f.name ++ s!": {f.type.name},"]

/-- The module of a row. -/
def rowModule (e : Entity) : List Code := [
  "use serde::\x7bDeserialize, Serialize\x7d;",
  "",
  s!"pub const {e.names.constant}_TABLE: &str = \"{e.table.name}\";",
  "",
  when e.deferred ["/// Part of a reference cycle: related rows are loaded on demand."],
  "#[derive(Debug, Clone, Serialize, Deserialize, sqlx::FromRow)]",
  block s!"pub struct {e.names.entity}" [each e.fields rowMember]]

/-- What a text field is checked for. -/
def checks (f : Field) : List Code :=
  match f.type.length, f.sqlType.isTextual with
  | some max, true => [s!"#[validate(length(max = {max}))]"]
  | _, textual =>
    [when (textual && f.isRequiredInput) ["#[validate(length(min = 1))]"]]

/-- A member of the structure that rows are created with. It may be left out if it is optional. -/
def createMember (validation : Bool) (f : Field) : List Code :=
  let type :=
    if f.isRequiredInput || f.type.nullable then f.type.name else s!"Option<{f.type.inner}>"
  [ when validation (checks f),
    when (!f.isRequiredInput) ["#[serde(default)]"],
    "pub " ++ ident f.name ++ s!": {type}," ]

/-- A member of the structure that rows are changed with. It may always be left out. -/
def updateMember (validation : Bool) (f : Field) : List Code := [
  when validation (checks f),
  "#[serde(default)]",
  "pub " ++ ident f.name ++ s!": Option<{f.type.inner}>,"]

/-- The module of the inputs. -/
def inputModule (b : Blueprint) (e : Entity) : List Code :=
  let validation := b.features.validation
  let derive :=
    if validation then "#[derive(Debug, Clone, Deserialize, Validate)]"
    else "#[derive(Debug, Clone, Deserialize)]"
  [ "use serde::Deserialize;",
    when validation ["use validator::Validate;"],
    "",
    derive,
    block s!"pub struct Create{e.names.entity}" [each e.inputFields (createMember validation)],
    "",
    derive,
    block s!"pub struct Update{e.names.entity}" [each e.inputFields (updateMember validation)] ]

end CrudGen.Rust
