import CrudGen.Server.FileSet

/-!
# Archives

The files of all targets and of their scaffolding in one tree. The files of a target stand in the
directory of its key, and no path is claimed twice.
-/

namespace CrudGen

/-- Static files that stand beside the generated ones: in the directory of a target, or at the root
of the tree. -/
structure Scaffolding where
  shared : Dict String ByteArray := []
  perTarget : Dict TargetKey (Dict String ByteArray) := []

/-- Whether there are no static files. -/
def Scaffolding.isEmpty (s : Scaffolding) : Bool :=
  s.shared.isEmpty && s.perTarget.all fun (_, files) => files.isEmpty

/-- Where a file comes from. -/
inductive FileOrigin where
  | generated | scaffolding
  deriving DecidableEq, Repr, Inhabited

/-- The name of an origin. -/
def FileOrigin.name : FileOrigin → String
  | .generated => "generated"
  | .scaffolding => "scaffolding"

/-- What a file of an archive holds. -/
structure ArchiveFile where
  content : ByteArray

/-- A file with the path that it claims. Scaffolding at the root belongs to no target. -/
structure Placement where
  path : String
  content : ByteArray
  origin : FileOrigin
  target : Option TargetKey

/-- What is known of a file without its content. -/
structure ManifestEntry where
  path : String
  size : Nat
  origin : FileOrigin
  target : Option TargetKey
  deriving DecidableEq, Repr, Inhabited

/-- The entry of a file. -/
def Placement.entry (p : Placement) : ManifestEntry :=
  { path := p.path, size := p.content.size, origin := p.origin, target := p.target }

/-- What the path of a file is claimed by. -/
def ManifestEntry.owner (e : ManifestEntry) : String :=
  match e.origin, e.target with
  | .generated, some key => key.text
  | _, _ => "scaffolding"

/-- A path that two files claim, and what claimed it first. -/
structure PathConflict where
  path : String
  claimedBy : String
  deriving DecidableEq, Repr, Inhabited

/-- What a user is told of a conflict. -/
def PathConflict.message (c : PathConflict) : String :=
  "path conflict at '" ++ c.path ++ "': generated by " ++ c.claimedBy
    ++ ", also supplied as scaffolding"

/-- Files by path, and what is known of them without their contents. -/
structure Archive where
  files : Dict String ArchiveFile := []
  manifest : List ManifestEntry := []

namespace Archive

/-- Adds a file, whose path has to be new. -/
def add (a : Archive) (p : Placement) : Except PathConflict Archive :=
  if a.files.contains p.path then
    let earlier := a.manifest.find? (·.path == p.path)
    .error { path := p.path, claimedBy := (earlier.map (·.owner)).getD "" }
  else
    .ok {
      files := a.files.insert p.path { content := p.content }
      manifest := a.manifest ++ [p.entry] }

/-- A path in the directory of a target. -/
def placed (key : TargetKey) (path : String) : String :=
  key.directory ++ "/" ++ path

/-- Adds the generated files of a target. -/
def addGenerated (a : Archive) (key : TargetKey) (set : FileSet) : Except PathConflict Archive :=
  set.files.foldlM (fun a (path, content) => a.add {
    path := placed key path, content := content.toUTF8, origin := .generated, target := some key }) a

/-- Adds the files that stand beside the generated ones of a target. -/
def addBeside (a : Archive) (key : TargetKey) (files : Dict String ByteArray) :
    Except PathConflict Archive :=
  files.foldlM (fun a (path, content) => a.add {
    path := placed key path, content, origin := .scaffolding, target := some key }) a

/-- Adds the files at the root. -/
def addShared (a : Archive) (files : Dict String ByteArray) : Except PathConflict Archive :=
  files.foldlM (fun a (path, content) => a.add {
    path, content, origin := .scaffolding, target := none }) a

/-- The archive with the entries of its manifest in ascending order of their paths. -/
def inOrder (a : Archive) : Archive :=
  { a with manifest := a.manifest.mergeSort fun e e' => !(e'.path < e.path) }

/-- Puts all files into one tree. -/
def assemble (fileSets : Dict TargetKey FileSet) (s : Scaffolding) :
    Except PathConflict Archive := do
  let generated ← fileSets.foldlM (fun a (key, set) => a.addGenerated key set) ({} : Archive)
  let beside ← s.perTarget.foldlM (fun a (key, files) => a.addBeside key files) generated
  let all ← beside.addShared s.shared
  return all.inOrder

/-- The content of a file. -/
def get? (a : Archive) (path : String) : Option ByteArray :=
  (a.files.get? path).map (·.content)

/-- The content of a file of text. -/
def text? (a : Archive) (path : String) : Option String :=
  (a.get? path).bind String.fromUTF8?

/-- The number of bytes in all files. -/
def totalSize (a : Archive) : Nat :=
  a.manifest.foldl (fun total e => total + e.size) 0

/-- The number of files of an origin. -/
def count (a : Archive) (origin : FileOrigin) : Nat :=
  a.manifest.countP (·.origin == origin)

end Archive

end CrudGen
