import CrudGen.Server.Blueprint
import CrudGen.Server.Code
import CrudGen.Text.Basic

/-!
# Java sources

Names, literals, packages and types as they are written in Java.
-/

namespace CrudGen.Java

open Code

/-- Words that are no names. -/
def keywords : List String :=
  ["abstract", "assert", "boolean", "break", "byte", "case", "catch", "char", "class", "const",
    "continue", "default", "do", "double", "else", "enum", "extends", "final", "finally",
    "float", "for", "goto", "if", "implements", "import", "instanceof", "int", "interface",
    "long", "native", "new", "package", "private", "protected", "public", "return", "short",
    "static", "strictfp", "super", "switch", "synchronized", "this", "throw", "throws",
    "transient", "try", "void", "volatile", "while", "true", "false"]

/-- A name, told apart from a keyword by an underscore. -/
def ident (name : String) : String :=
  if keywords.contains name then name ++ "_" else name

/-- A text as a literal. -/
def literal (s : String) : String :=
  Text.quote s

/-- A block with four blanks to a step. -/
def block (head : String) (body : List Code) (tail : String := "") : Code :=
  Code.block "    " head body tail

/-- Blocks on common lines with four blanks to a step. -/
def blocks (branches : List (String × List Code)) (tail : String := "") : Code :=
  Code.blocks "    " branches tail

/-- Arguments or elements with commas between them. -/
def commas (items : List String) : String :=
  ", ".intercalate items

/-- The package that all others stand in: the letters and digits of the project's name. -/
def rootPackage (b : Blueprint) : String :=
  let stem := (b.project.toList.filter Char.isAlphanum).map Char.toLower
  match stem with
  | [] => "com.app"
  | first :: _ => (if first.isDigit then "com.app" else "com.") ++ String.ofList stem

/-- A package by its name in the root package. -/
def package (b : Blueprint) (name : String) : String :=
  if name.isEmpty then rootPackage b else rootPackage b ++ "." ++ name

/-- The path of a class. -/
def classPath (b : Blueprint) (inPackage name : String) : String :=
  let slashed (c : Char) : Char := if c == '.' then '/' else c
  let directory := String.ofList ((package b inPackage).toList.map slashed)
  s!"src/main/java/{directory}/{name}.java"

/-- A class of the generated packages as it is imported. -/
def ownClass (b : Blueprint) (inPackage name : String) : String :=
  package b inPackage ++ "." ++ name

/-- A source with what it imports. -/
def source (b : Blueprint) (inPackage : String) (imports : List String) (body : List Code) :
    List Code := [
  "package " ++ package b inPackage ++ ";",
  "",
  when (!imports.isEmpty) [
    each (ascending imports) fun path => [s!"import {path};"],
    ""],
  all body]

/-- What the types of some fields are imported from. -/
def typeImports (b : Blueprint) (fields : List Field) : List String :=
  fields.filterMap fun f => b.profile.importFor f.type.base

/-- The type of a field that admits null. -/
def boxed (b : Blueprint) (f : Field) : String :=
  b.profile.nullable.apply f.type.inner

/-- The name of a member as it stands in the names of its accessors. -/
def capitalized (name : String) : String :=
  match name.toList with
  | [] => ""
  | first :: rest => Text.toUpper (String.singleton first) ++ String.ofList rest

/-- The methods that read and set a member. -/
def accessors (type name : String) : List Code :=
  let suffix := capitalized name
  [ "",
    block s!"public {type} get{suffix}()" [s!"return {name};"],
    "",
    block s!"public void set{suffix}({type} {name})" [s!"this.{name} = {name};"] ]

/-- What a row is identified by. -/
inductive Identity where
  | single (f : Field)
  /-- Several columns: those of the primary key, or all columns if there is none. -/
  | composite (fields : List Field)

namespace Identity

/-- What the rows of an entity are identified by. -/
def ofEntity (e : Entity) : Identity :=
  match e.keyFields with
  | [] => .composite e.fields
  | [f] => .single f
  | several => .composite several

/-- The fields that identify a row. -/
def fields : Identity → List Field
  | .single f => [f]
  | .composite fs => fs

/-- The type of an identity. -/
def type (b : Blueprint) (e : Entity) : Identity → String
  | .single f => boxed b f
  | .composite _ => e.names.entity ++ "Id"

end Identity

/-- The primary key as parameters. -/
def keyParams (b : Blueprint) (e : Entity) : String :=
  commas (e.keyFields.map fun f => boxed b f ++ " " ++ ident f.name)

/-- The primary key as arguments. -/
def keyArgs (e : Entity) : String :=
  commas (e.keyFields.map fun f => ident f.name)

/-- The expression for the identity of a row with a key. -/
def identityOf (e : Entity) : String :=
  match e.keyFields with
  | [f] => ident f.name
  | _ => s!"new {e.names.entity}Id(" ++ keyArgs e ++ ")"

end CrudGen.Java
