import CrudGen.Entity.Build
import CrudGen.Server.FileSet
import CrudGen.Target.Profile

/-!
# Features and blueprints

Features of a generated server are asked for by name. One is in effect if it is asked for, or asked
for by default, and the target can have it.

A `Blueprint` is everything that an emitter may read: the schema, the target, and the entities in
generation order. An `Emitter` writes the files of one entity and the files that all entities share.
-/

namespace CrudGen

/-- The known features, and whether they are asked for by default. -/
def featureDefaults : List (String × Bool) :=
  [("auth", false), ("rate_limit", false), ("caching", false), ("validation", true),
    ("pagination", true), ("soft_delete", false)]

/-- Features that are asked for or declined by name. -/
structure FeatureToggles where
  overrides : Dict String Bool := []
  deriving DecidableEq, Repr, Inhabited

namespace FeatureToggles

/-- Asks for a feature or declines it. -/
def set (t : FeatureToggles) (name : String) (wanted : Bool) : FeatureToggles :=
  { overrides := t.overrides.insert name wanted }

/-- Whether a feature is asked for. -/
def requested (t : FeatureToggles) (name : String) : Bool :=
  (t.overrides.get? name).getD ((featureDefaults.lookup name).getD false)

/-- The names that are no known feature. -/
def unknown (t : FeatureToggles) : List String :=
  t.overrides.keys.filter fun name => (featureDefaults.lookup name).isNone

end FeatureToggles

/-- The features in effect for a target. -/
structure Features where
  auth : Bool := false
  rateLimit : Bool := false
  caching : Bool := false
  validation : Bool := false
  pagination : Bool := false
  softDelete : Bool := false
  deriving DecidableEq, Repr, Inhabited

/-- The features that are asked for and that the target can have. -/
def Features.resolve (t : FeatureToggles) (p : Profile) : Features :=
  let on (name : String) : Bool := t.requested name && p.supports name
  { auth := on "auth"
    rateLimit := on "rate_limit"
    caching := on "caching"
    validation := on "validation"
    pagination := on "pagination"
    softDelete := on "soft_delete" }

/-- The files and names of the other entities that relations lead to, in ascending order and each
once. -/
def Entity.neighbours (e : Entity) : List (String × String) :=
  let others := (e.relations.filter (·.targetEntity != e.names.entity)).map fun r =>
    (r.targetFile, r.targetEntity)
  (others.mergeSort fun a b => a.1 < b.1 || (a.1 == b.1 && !(b.2 < a.2))).eraseDups

/-- What a server is generated from. `project` names packages and modules. -/
structure Blueprint where
  schema : Schema
  profile : Profile
  features : Features
  project : String
  entities : List Entity
  deriving Inhabited

namespace Blueprint

/-- The blueprint of a schema for a target. -/
def ofSchema (s : Schema) (p : Profile) (toggles : FeatureToggles) (project : String) :
    Blueprint where
  schema := s
  profile := p
  features := .resolve toggles p
  project := project
  entities := s.entityModels p

/-- The entity of a table. -/
def entity? (b : Blueprint) (table : String) : Option Entity :=
  b.entities.find? (·.table.name == table)

/-- The relation of the other entity that is this relation seen from its other end. -/
def counterpart? (b : Blueprint) (e : Entity) (r : Relation) : Option Relation :=
  (b.entity? r.targetTable).bind fun target => target.relations.find? fun other =>
    other.targetTable == e.table.name
      && other.inverse != r.inverse
      && other.via.map (·.table) == r.via.map (·.table)
      && other.localColumns == r.remoteColumns
      && other.remoteColumns == r.localColumns

/-- The member that a column of a table is. -/
def fieldName (b : Blueprint) (table column : String) : String :=
  (((b.entity? table).bind (·.field? column)).map (·.name)).getD column

end Blueprint

/-- A writer of server projects. One that breaks down on a blueprint loses what it has written. -/
structure Emitter where
  entityFiles : Blueprint → Entity → Except String (List SourceFile)
  sharedFiles : Blueprint → Except String (List SourceFile)
  crashes : Blueprint → Bool := fun _ => false

namespace Emitter

/-- An emitter that does not fail. -/
def ofFiles (entityFiles : Blueprint → Entity → List SourceFile)
    (sharedFiles : Blueprint → List SourceFile) : Emitter where
  entityFiles b e := .ok (entityFiles b e)
  sharedFiles b := .ok (sharedFiles b)

/-- Adds the files that a step of an emitter gives. -/
def addFiles (b : Blueprint) (s : FileSet) (files : Except String (List SourceFile)) :
    Except GenerationError FileSet :=
  match files with
  | .ok files => s.addAll b.profile.key files
  | .error reason => .error (.failed reason)

/-- The files of a project: those of the entities in generation order, then the shared ones. -/
def run (emitter : Emitter) (b : Blueprint) : Except GenerationError FileSet := do
  if emitter.crashes b then throw .crashed
  let s ← b.entities.foldlM (fun s e => addFiles b s (emitter.entityFiles b e)) {}
  addFiles b s (emitter.sharedFiles b)

end Emitter

end CrudGen
