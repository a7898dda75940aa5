import CrudGen.Server.Blueprint
import CrudGen.Server.Code

/-!
# Go sources

Names, imports and primary keys as they are written in Go.
-/

namespace CrudGen.Go

open Code

/-- The web frameworks that Go servers are generated for. -/
inductive Framework where
  | gin | echo
  deriving DecidableEq, Repr, Inhabited

/-- Words that are no names. -/
def keywords : List String :=
  ["break", "case", "chan", "const", "continue", "default", "defer", "else", "fallthrough", "for",
    "func", "go", "goto", "if", "import", "interface", "map", "package", "range", "return",
    "select", "struct", "switch", "type", "var"]

/-- The variables of generated functions. -/
def variableNames : List String :=
  ["c", "h", "s", "r", "err", "ctx", "row", "req"]

/-- The parameter for a part of a key, told apart from keywords and variables. -/
def param (f : Field) : String :=
  let name := Casing.toCamel f.column
  if keywords.contains name || variableNames.contains name then name ++ "Key" else name

/-- The path of the generated module. -/
def modulePath (b : Blueprint) : String :=
  Casing.toKebab b.project

/-- The path of a generated package. -/
def package (b : Blueprint) (name : String) : String :=
  modulePath b ++ "/internal/" ++ name

/-- A block with a tab to a step. -/
def block (head : String) (body : List Code) (tail : String := "") : Code :=
  Code.block "\t" head body tail

/-- A path between double quotes. -/
def quoted (path : String) : String :=
  "\"" ++ path ++ "\""

/-- A source with its imports in groups. -/
def source (name : String) (imports : List (List String)) (body : List Code) : List Code :=
  let groups := imports.filter (!·.isEmpty)
  [ s!"package {name}",
    "",
    when (!groups.isEmpty) [
      "import (",
      indent "\t" [spaced (groups.map fun group => [ofLines group])],
      ")",
      ""],
    all body ]

/-- Whether a path is that of a generated package. -/
def isInternal (b : Blueprint) (path : String) : Bool :=
  (Text.dropStart? path (modulePath b ++ "/")).isSome

/-- Whether a path starts with the name of a host. -/
def hasHost (path : String) : Bool :=
  ((Text.splitAll (· == '/') path.toList).headD []).contains '.'

/-- Paths in groups: the library of the language, the packages of others, the generated ones. -/
def grouped (b : Blueprint) (paths : List String) : List (List String) :=
  let sorted := ascending paths
  [ sorted.filter fun p => !isInternal b p && !hasHost p,
    sorted.filter fun p => !isInternal b p && hasHost p,
    sorted.filter (isInternal b) ]

/-- A source that imports some paths. -/
def sourceOf (b : Blueprint) (name : String) (paths : List String) (body : List Code) :
    List Code :=
  source name ((grouped b paths).map fun group => group.map quoted) body

/-- The paths that the types of some fields come from. -/
def typeImports (b : Blueprint) (fields : List Field) : List String :=
  fields.filterMap fun f => b.profile.importFor f.type.base

/-- The primary key as parameters. -/
def keyParams (e : Entity) : String :=
  ", ".intercalate (e.keyFields.map fun f => param f ++ " " ++ f.type.inner)

/-- The primary key as arguments. -/
def keyArgs (e : Entity) : String :=
  ", ".intercalate (e.keyFields.map param)

/-- The expression for the text under which a row is cached. -/
def cacheKey (e : Entity) : String :=
  "fmt.Sprint(" ++ ", \"/\", ".intercalate (e.keyFields.map param) ++ ")"

end CrudGen.Go
