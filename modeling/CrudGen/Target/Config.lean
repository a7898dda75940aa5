import CrudGen.Catalog.Type
import CrudGen.Data.Toml.Parser
import CrudGen.Target.Profile

/-!
# Profiles from configuration

A configuration has a table of languages and a list of targets. Every language has to account for
every scalar type, its templates need a place for the type, and a target names a language that is
there. The first thing that is wrong is the error.
-/

namespace CrudGen

/-- What is wrong with a configuration. -/
inductive ConfigError where
  /-- The text is no document of the expected shape. -/
  | malformed
  | unknownLanguage (target language : String)
  | missingType (language sqlType : String)
  | unknownRole (language role : String)
  | badTemplate (language field template : String)
  | duplicateTarget (target : String)
  deriving DecidableEq, Repr, Inhabited

/-- The wording of an error. -/
def ConfigError.message : ConfigError → String
  | .malformed => "invalid profile file"
  | .unknownLanguage target language =>
    "target " ++ target ++ " uses undefined language '" ++ language ++ "'"
  | .missingType language sqlType =>
    "language '" ++ language ++ "' has no mapping for SQL type '" ++ sqlType ++ "'"
  | .unknownRole language role => "language '" ++ language ++ "': unknown role '" ++ role ++ "'"
  | .badTemplate language field template =>
    "language '" ++ language ++ "': " ++ field ++ " template '" ++ template
      ++ "' has no \x7b\x7d placeholder"
  | .duplicateTarget target => "target " ++ target ++ " is declared more than once"

/-- A language as it is configured; its roles are not looked up yet. -/
structure LanguageConfig where
  conventions : Conventions
  naming : Dict String Casing
  plural : List String
  deriving Inhabited

/-- A target as it is configured. -/
structure TargetConfig where
  key : TargetKey
  features : List String
  dependencies : Dict String String
  deriving Inhabited

namespace Config

/-- The word for each casing. -/
def casingWords : List (String × Casing) :=
  [("snake", .snake), ("camel", .camel), ("pascal", .pascal), ("kebab", .kebab),
    ("screaming_snake", .screamingSnake), ("preserve", .preserve)]

/-- The word for each form of decimals. -/
def decimalWords : List (String × DecimalForm) :=
  [("fixed", .fixed), ("float", .float), ("string", .string)]

/-- The members of a language in the order in which an array gives them. -/
def languageMembers : List String :=
  ["extension", "fallback", "array", "decimal", "nullable", "naming", "plural", "types",
    "unsupported", "imports"]

/-- The members of a target in the order in which an array gives them. -/
def targetMembers : List String :=
  ["language", "framework", "features", "dependencies"]

/-- A part that may be left out; it has to be of the right kind if it is there. -/
def orEmpty (read : Toml → Option (List α)) : Option Toml → Option (List α)
  | none => some []
  | some v => read v

/-- The way null is spelled. -/
def nullability? : Toml → Option Nullability
  | .table [("template", v)] => v.asText?.map .template
  | .table [("boxed", v)] => v.asTextTable?.map fun pairs => .boxed (Dict.ofList pairs)
  | _ => none

/-- The casings of roles. -/
def naming? (t : Toml) : Option (Dict String Casing) := do
  let casings ← (← t.asEntries?).mapM fun (role, v) => do
    return (role, ← casingWords.lookup (← v.asWord?))
  return Dict.ofList casings

/-- A language. -/
def language? (t : Toml) : Option LanguageConfig := do
  let member (name : String) : Option Toml := t.member? languageMembers name
  let conventions : Conventions := {
    extension := ← (← member "extension").asText?
    fallback := ← (← member "fallback").asText?
    array := ← (← member "array").asText?
    decimal := ← decimalWords.lookup (← (← member "decimal").asWord?)
    nullable := ← nullability? (← member "nullable")
    naming := []
    types := Dict.ofList (← (← member "types").asTextTable?)
    unsupported := ascending (← orEmpty Toml.asTexts? (member "unsupported"))
    imports := Dict.ofList (← orEmpty Toml.asTextTable? (member "imports")) }
  return {
    conventions
    naming := ← naming? (← member "naming")
    plural := ← orEmpty Toml.asTexts? (member "plural") }

/-- A target. -/
def target? (t : Toml) : Option TargetConfig := do
  let member (name : String) : Option Toml := t.member? targetMembers name
  return {
    key := ⟨← (← member "language").asText?, ← (← member "framework").asText?⟩
    features := ascending (← orEmpty Toml.asTexts? (member "features"))
    dependencies := Dict.ofList (← orEmpty Toml.asTextTable? (member "dependencies")) }

/-- The languages and the targets of a document. -/
def document? (t : Toml) : Option (Dict String LanguageConfig × List TargetConfig) := do
  let members := ["languages", "targets"]
  let entries ← (← t.member? members "languages").asEntries?
  let languages ← entries.mapM fun (name, v) => (language? v).map fun l => (name, l)
  let targets ← (← orEmpty Toml.asItems? (t.member? members "targets")).mapM target?
  return (Dict.ofList languages, targets)

/-- Whether a template has a place for a type. -/
def hasPlace (template : String) : Bool :=
  Text.has template "\x7b\x7d"

/-- Checks that a language accounts for every scalar type and that its templates have places. -/
def checkLanguage (name : String) (c : Conventions) : Except ConfigError Unit := do
  if let some key := SqlType.scalarKeys.find? fun k =>
      !c.types.contains k && !c.unsupported.contains k then
    throw (.missingType name key)
  if !hasPlace c.array then throw (.badTemplate name "array" c.array)
  if let .template t := c.nullable then
    if !hasPlace t then throw (.badTemplate name "nullable" t)

/-- The role of a name. -/
def role (language name : String) : Except ConfigError Role :=
  match Role.ofName? name with
  | some r => .ok r
  | none => .error (.unknownRole language name)

/-- The profile of a target. -/
def profile (l : LanguageConfig) (t : TargetConfig) : Except ConfigError Profile := do
  let naming ← l.naming.mapM fun (name, casing) => do
    return (← role t.key.language name, casing)
  let plural ← l.plural.mapM (role t.key.language)
  return {
    l.conventions with
    naming
    plural := Role.all.filter plural.contains
    key := t.key
    features := t.features
    dependencies := t.dependencies }

/-- Adds the profile of a target. -/
def addTarget (languages : Dict String LanguageConfig) (s : ProfileSet) (t : TargetConfig) :
    Except ConfigError ProfileSet := do
  match languages.get? t.key.language with
  | none => throw (.unknownLanguage t.key.text t.key.language)
  | some l =>
    if s.profiles.contains t.key then throw (.duplicateTarget t.key.text)
    return s.insert (← profile l t)

end Config

/-- The profiles that a configuration gives. -/
def ProfileSet.ofToml (document : String) : Except ConfigError ProfileSet := do
  let some (languages, targets) := (Toml.parse? document).bind Config.document?
    | throw .malformed
  for (name, l) in languages do
    Config.checkLanguage name l.conventions
  targets.foldlM (Config.addTarget languages) default

end CrudGen
