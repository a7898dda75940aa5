import CrudGen.Catalog.Build
import CrudGen.Schema.Infer
import CrudGen.Server.Blueprint
import CrudGen.Target.Profile

/-!
# Generation

A request names a script and the targets that servers are wanted for. Each distinct target comes out
on its own: either with files, pins and warnings, or with one error. Only a script without tables
ends a request early.
-/

namespace CrudGen

/-- What a user asks for. -/
structure GenerationRequest where
  ddl : String
  targets : List TargetKey := []
  /-- The name that packages and modules derive from. -/
  project : String
  toggles : FeatureToggles := {}
  dialect : Sql.Dialect := .auto

/-- What a request gives: the targets that succeeded and everything a user should be told. -/
structure Generation where
  schema : Schema
  fileSets : Dict TargetKey FileSet := []
  /-- The versions that the build file of each target has to name. -/
  pins : Dict TargetKey (Dict String String) := []
  diagnostics : List Diagnostic := []

/-- Whether anything went wrong. -/
def Generation.hasErrors (g : Generation) : Bool :=
  g.diagnostics.any (·.severity == .error)

/-- A script that no table could be read from, with the errors of its statements. -/
structure NoTables where
  errors : List StatementError
  deriving DecidableEq, Repr, Inhabited

/-- What a user is told of a script without tables. -/
def NoTables.message (e : NoTables) : String :=
  "no parsable tables in input (" ++ toString e.errors.length ++ " statement error(s))"

/-- What becomes of one target. -/
inductive TargetOutcome where
  | generated (files : FileSet) (pins : Dict String String) (warnings : List UnmappedType)
  | failed (cause : GenerationError)
  | unsupported (reason : String)
  deriving DecidableEq, Repr, Inhabited

/-- What a user is told of a target. -/
def TargetOutcome.diagnostics (key : TargetKey) : TargetOutcome → List Diagnostic
  | .generated _ _ warnings => warnings.map .unmappedType
  | .failed cause => [.generation key.text cause.message]
  | .unsupported reason => [.unsupportedTarget { target := key.text, reason }]

/-- Whether a target was turned down before anything was generated for it. -/
def TargetOutcome.isUnsupported : TargetOutcome → Bool
  | .unsupported _ => true
  | _ => false

/-- Emitters by the targets that they write. -/
abbrev EmitterSet := Dict TargetKey Emitter

/-- The profiles and emitters that servers are generated with. -/
structure Generator where
  profiles : ProfileSet
  emitters : EmitterSet

namespace Generator

/-- The targets with both a profile and an emitter. -/
def targets (g : Generator) : List TargetKey :=
  g.emitters.keys.filter fun key => (g.profiles.get? key).isSome

/-- The versions that the profile of a target names. -/
def pins? (g : Generator) (key : TargetKey) : Option (Dict String String) :=
  (g.profiles.get? key).map (·.dependencies)

/-- What becomes of a target. -/
def outcome (g : Generator) (s : Schema) (toggles : FeatureToggles) (project : String)
    (key : TargetKey) : TargetOutcome :=
  match g.profiles.get? key, g.emitters.get? key with
  | none, _ => .unsupported "no target profile"
  | some _, none => .unsupported "no registered emitter"
  | some profile, some emitter =>
    let blueprint := Blueprint.ofSchema s profile toggles project
    match emitter.run blueprint with
    | .ok files =>
      .generated files profile.dependencies (blueprint.entities.flatMap (Entity.warnings profile))
    | .error cause => .failed cause

/-- Answers a request. Diagnostics come in this order: on the script, on its schema, on targets that
are turned down, on the other targets. -/
def run (g : Generator) (request : GenerationRequest) : Except NoTables Generation :=
  let extraction := Extraction.ofScript request.ddl request.dialect
  if extraction.catalog.tables.isEmpty then .error { errors := extraction.errors }
  else
    let schema := Schema.infer extraction.catalog
    let outcomes := request.targets.eraseDups.map fun key =>
      (key, g.outcome schema request.toggles request.project key)
    let (declined, tried) := outcomes.partition (·.2.isUnsupported)
    .ok {
      schema
      fileSets := .ofList (tried.filterMap fun (key, outcome) =>
        match outcome with
        | .generated files .. => some (key, files)
        | _ => none)
      pins := .ofList (tried.filterMap fun (key, outcome) =>
        match outcome with
        | .generated _ pins _ => some (key, pins)
        | _ => none)
      diagnostics :=
        extraction.errors.map .parse
          ++ extraction.unresolved.map .unresolvedReference
          ++ schema.cycles.map .cycle
          ++ schema.unresolved.map .unresolvedReference
          ++ (declined ++ tried).flatMap fun (key, outcome) => outcome.diagnostics key }

end Generator

end CrudGen
