import CrudGen.Server.Blueprint
import CrudGen.Server.Code
import CrudGen.Text.Basic

/-!
# Python sources

Names, literals, primary keys and imports as they are written in Python.
-/

namespace CrudGen.Python

open Code

/-- The web frameworks that Python servers are generated for. -/
inductive Framework where
  | fastApi | flask
  deriving DecidableEq, Repr, Inhabited

/-- Words that are no names. -/
def keywords : List String :=
  ["False", "None", "True", "and", "as", "assert", "async", "await", "break", "class",
    "continue", "def", "del", "elif", "else", "except", "finally", "for", "from", "global", "if",
    "import", "in", "is", "lambda", "nonlocal", "not", "or", "pass", "raise", "return", "try",
    "while", "with", "yield"]

/-- A name, told apart from a keyword by an underscore. -/
def ident (name : String) : String :=
  if keywords.contains name then name ++ "_" else name

/-- The module of an entity. -/
def moduleOf (e : Entity) : String :=
  ident e.names.file

/-- A text as a literal. -/
def literal (s : String) : String :=
  Text.quote s

/-- A statement with the lines that belong to it. -/
def suite (head : String) (body : List Code) : Code :=
  all [head ++ ":", indent "    " body]

/-- Arguments or elements with commas between them. -/
def commas (items : List String) : String :=
  ", ".intercalate items

/-- The imports of the modules that the types of some fields come from. -/
def typeImports (b : Blueprint) (fields : List Field) : List String :=
  let modules := fields.filterMap fun f => b.profile.importFor f.type.base
  ascending (modules.map fun m => s!"import {m}")

/-- The primary key as parameters. -/
def keyParams (e : Entity) : String :=
  commas (e.keyFields.map fun f => ident f.name ++ s!": {f.type.inner}")

/-- The primary key as arguments. -/
def keyArgs (e : Entity) : String :=
  commas (e.keyFields.map fun f => ident f.name)

end CrudGen.Python
