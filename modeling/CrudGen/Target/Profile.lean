import CrudGen.Data.Dict
import CrudGen.Naming.Inflection
import CrudGen.Target.Key

/-!
# Target profiles

A profile says how a target spells types and names, which features it has, and which versions of
its dependencies it asks for. What frameworks of one language share are its `Conventions`. A
`ProfileSet` has the profiles that are known, in ascending order of their keys.
-/

namespace CrudGen

/-- What an identifier is used as. -/
inductive Role where
  /-- The name of a type. -/
  | entity
  /-- The name of a member. -/
  | field
  /-- A segment of a path in a URL. -/
  | route
  /-- The name of a file or module. -/
  | file
  /-- The name of a database table. -/
  | table
  /-- The name of a constant. -/
  | constant
  deriving DecidableEq, Repr, Inhabited

namespace Role

/-- Every role. -/
def all : List Role :=
  [.entity, .field, .route, .file, .table, .constant]

/-- The name of a role. -/
def name : Role → String
  | .entity => "entity"
  | .field => "field"
  | .route => "route"
  | .file => "file"
  | .table => "table"
  | .constant => "constant"

/-- The role of a name. -/
def ofName? (s : String) : Option Role :=
  all.find? (·.name == s)

end Role

/-- How decimals are represented. -/
inductive DecimalForm where
  /-- A type with a fixed point, which has a precision and a scale. -/
  | fixed
  | float
  | string
  deriving DecidableEq, Repr, Inhabited

/-- The places of a template: two curly brackets. -/
def fill (argument : List Char) : List Char → List Char
  | [] => []
  | '\x7b' :: '\x7d' :: rest => argument ++ fill argument rest
  | c :: rest => c :: fill argument rest

/-- A template with its places filled. -/
def fillTemplate (template argument : String) : String :=
  String.ofList (fill argument.toList template.toList)

/-- How a type that admits null is spelled. -/
inductive Nullability where
  | template (t : String)
  /-- The listed types have another spelling; all others admit null as they are. -/
  | boxed (spellings : Dict String String)
  deriving DecidableEq, Repr, Inhabited

/-- The spelling of a type that admits null. -/
def Nullability.apply (n : Nullability) (type : String) : String :=
  match n with
  | .template t => fillTemplate t type
  | .boxed spellings => (spellings.get? type).getD type

/-- How a language spells types and names. `types` maps the keys of scalar types, `fallback` stands
for all others and for those in `unsupported`, and `array` is a template. -/
structure Conventions where
  extension : String
  types : Dict String String
  unsupported : List String := []
  fallback : String
  array : String
  decimal : DecimalForm
  nullable : Nullability
  naming : List (Role × Casing)
  plural : List Role := []
  /-- Paths to import for a type or for what qualifies it. -/
  imports : Dict String String := []
  deriving DecidableEq, Repr, Inhabited

/-- Everything that is particular to a target. -/
structure Profile extends Conventions where
  key : TargetKey
  features : List String := []
  dependencies : Dict String String := []
  deriving DecidableEq, Repr, Inhabited

namespace Profile

/-- The casing of a role. -/
def casing (p : Profile) (role : Role) : Casing :=
  (p.naming.lookup role).getD .preserve

/-- Whether a feature can be had. -/
def supports (p : Profile) (feature : String) : Bool :=
  p.features.contains feature

/-- The characters before the last `separator`, if there is one. -/
def qualifier? (separator : String) (type : String) : Option String :=
  let mark := separator.toList.reverse
  let rec go : List Char → Option (List Char)
    | [] => none
    | c :: rest =>
      if mark.isPrefixOf (c :: rest) then some ((c :: rest).drop mark.length) else go rest
  (go type.toList.reverse).map fun cs => String.ofList cs.reverse

/-- The path to import for a type: its own, or that of its qualifier. -/
def importFor (p : Profile) (type : String) : Option String :=
  (p.imports.get? type).or
    (((qualifier? "::" type).or (qualifier? "." type)).bind p.imports.get?)

/-- An identifier as it is spelled in a role. Types and files are named in the singular; roles that
the profile lists are named in the plural. -/
def mapName (p : Profile) (identifier : String) (role : Role) : String :=
  let snake := Casing.toSnake identifier
  let single :=
    if role == .entity || role == .file then Naming.onLastWord Naming.singularize snake else snake
  let word :=
    if p.plural.contains role then
      Naming.onLastWord Naming.pluralize (Naming.onLastWord Naming.singularize single)
    else single
  (p.casing role).apply word

end Profile

/-- Profiles by their keys. -/
structure ProfileSet where
  profiles : Dict TargetKey Profile := []
  /-- A profile stands under its own key. -/
  keyed : ∀ entry ∈ profiles, entry.2.key = entry.1 := by simp
  deriving DecidableEq, Repr

namespace ProfileSet

instance : Inhabited ProfileSet where
  default := {}

/-- Adds a profile, in place of one that may stand under its key. -/
def insert (s : ProfileSet) (p : Profile) : ProfileSet where
  profiles := s.profiles.insert p.key p
  keyed := by
    intro entry hentry
    rcases Dict.of_mem_insert hentry with rfl | hentry
    · rfl
    · exact s.keyed entry hentry

/-- The set of some profiles. -/
def ofProfiles (ps : List Profile) : ProfileSet :=
  ps.foldl insert {}

/-- The profile of a key. -/
def get? (s : ProfileSet) (key : TargetKey) : Option Profile :=
  s.profiles.get? key

/-- The keys in ascending order. -/
def keys (s : ProfileSet) : List TargetKey :=
  s.profiles.keys

/-- The profiles in ascending order of their keys. -/
def toList (s : ProfileSet) : List Profile :=
  s.profiles.map (·.2)

end ProfileSet

end CrudGen
