import CrudGen.Archive.Basic

/-!
# Scaffolding from a directory

What stands below `targets/` in a directory that is named like a target belongs to that target. All
other files are shared.
-/

namespace CrudGen

/-- A path by its names. -/
abbrev PathNames := List String

namespace PathNames

/-- The order in which a walk through a directory meets paths. -/
def before : PathNames → PathNames → Bool
  | [], _ => true
  | _ :: _, [] => false
  | a :: as, b :: bs => a < b || (a == b && before as bs)

/-- A path as a text. -/
def text (path : PathNames) : String :=
  "/".intercalate path

end PathNames

namespace Scaffolding

/-- The target that a file belongs to, and its path in the directory of the target. -/
def ownTarget? : PathNames → Option (TargetKey × String)
  | "targets" :: directory :: name :: rest =>
    match TargetKey.ofText directory with
    | .ok key => some (key, PathNames.text (name :: rest))
    | .error _ => none
  | _ => none

/-- Adds a file of the directory. -/
def add (s : Scaffolding) (file : PathNames × ByteArray) : Scaffolding :=
  match ownTarget? file.1 with
  | some (key, path) =>
    let files := (s.perTarget.get? key).getD []
    { s with perTarget := s.perTarget.insert key (files.insert path file.2) }
  | none => { s with shared := s.shared.insert file.1.text file.2 }

/-- The scaffolding in the files of a directory, taken in the order of a walk. -/
def ofFiles (files : List (PathNames × ByteArray)) : Scaffolding :=
  (files.mergeSort fun a b => a.1.before b.1).foldl add {}

end Scaffolding

end CrudGen
