import CrudGen.Data.Dict
import CrudGen.Target.Key

/-!
# Generated files

The files of one target by their paths. A path is written once.
-/

namespace CrudGen

/-- Why nothing is generated for a target. -/
inductive GenerationError where
  /-- The emitter gave up; the reason is its own. -/
  | failed (reason : String)
  /-- The emitter broke down without a reason of its own. -/
  | crashed
  | duplicatePath (target path : String)
  deriving DecidableEq, Repr, Inhabited

/-- The wording of an error. -/
def GenerationError.message : GenerationError → String
  | .failed reason => reason
  | .crashed => "emitter panicked"
  | .duplicatePath target path => "emitter for " ++ target ++ " produced '" ++ path ++ "' twice"

/-- A path with the text of the file there. -/
abbrev SourceFile := String × String

/-- Texts by path. -/
structure FileSet where
  files : Dict String String := []
  deriving DecidableEq, Repr, Inhabited

namespace FileSet

/-- Adds a file, whose path has to be new. -/
def add (s : FileSet) (target : TargetKey) (file : SourceFile) : Except GenerationError FileSet :=
  if s.files.contains file.1 then .error (.duplicatePath target.text file.1)
  else .ok { files := s.files.insert file.1 file.2 }

/-- Adds files in order. -/
def addAll (s : FileSet) (target : TargetKey) (files : List SourceFile) :
    Except GenerationError FileSet :=
  files.foldlM (fun s file => s.add target file) s

/-- The text at a path. -/
def get? (s : FileSet) (path : String) : Option String :=
  s.files.get? path

/-- The paths in ascending order. -/
def paths (s : FileSet) : List String :=
  s.files.keys

end FileSet

end CrudGen
