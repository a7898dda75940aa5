import CrudGen.Archive.Scaffolding

/-!
# Access to files

The program reads and writes files through a `FileAccess`. A `FileTree` is one that is held in
memory: a directory by the paths of its files.
-/

namespace CrudGen

/-- How files are read and written. A failure is the text that the system has for it. -/
structure FileAccess (m : Type → Type) where
  readText : String → m (Except String String)
  /-- Every file below a directory by its path in it. -/
  readTree : String → m (Except String (List (PathNames × ByteArray)))
  /-- Writes a file below a directory, together with the directories on the way. -/
  write : String → String → ByteArray → m (Except String Unit)

/-- A path that leads to nothing. -/
def noSuchFile : String :=
  "No such file or directory (os error 2)"

/-- A directory that is in the way of a file. -/
def isDirectory : String :=
  "Is a directory (os error 21)"

/-- A file that is in the way on the path of another. -/
def notDirectory : String :=
  "Not a directory (os error 20)"

/-- A file that is in the way of a directory. -/
def fileExists : String :=
  "File exists (os error 17)"

/-- A file that is no text. -/
def notText : String :=
  "stream did not contain valid UTF-8"

namespace PathNames

/-- Goes on along a path: `.` stays and `..` goes back. -/
def step (path : PathNames) (name : String) : PathNames :=
  match name with
  | "" | "." => path
  | ".." => path.dropLast
  | _ => path ++ [name]

/-- The names of a path. -/
def ofText (s : String) : PathNames :=
  ((Text.splitAll (· == '/') s.toList).map String.ofList).foldl step []

end PathNames

/-- Files by their paths. -/
structure FileTree where
  files : List (PathNames × ByteArray) := []

namespace FileTree

/-- Adds a file in place of one that may be there. -/
def insert (t : FileTree) (path : PathNames) (content : ByteArray) : FileTree :=
  { files := t.files.filter (·.1 != path) ++ [(path, content)] }

/-- The tree of some files. -/
def ofFiles (files : List (String × ByteArray)) : FileTree :=
  files.foldl (fun t (path, content) => t.insert (.ofText path) content) {}

/-- The files below a directory by their paths in it. -/
def below (t : FileTree) (directory : PathNames) : List (PathNames × ByteArray) :=
  t.files.filterMap fun (path, content) =>
    if directory.isPrefixOf path && path != directory then
      some (path.drop directory.length, content)
    else none

/-- Whether there is a file at a path. -/
def hasFile (t : FileTree) (path : PathNames) : Bool :=
  t.files.any (·.1 == path)

/-- Whether a file stands on the way to a path. -/
def isBlocked (t : FileTree) (path : PathNames) : Bool :=
  t.files.any fun (other, _) => other.isPrefixOf path && other != path

/-- The text of a file. -/
def readText (t : FileTree) (s : String) : Except String String :=
  let path := PathNames.ofText s
  match t.files.lookup path with
  | some content =>
    match String.fromUTF8? content with
    | some text => .ok text
    | none => .error notText
  | none =>
    if !(t.below path).isEmpty || path.isEmpty then .error isDirectory
    else if t.isBlocked path then .error notDirectory
    else .error noSuchFile

/-- The files below a directory. -/
def readTree (t : FileTree) (s : String) : Except String (List (PathNames × ByteArray)) :=
  let path := PathNames.ofText s
  if t.hasFile path || t.isBlocked path then .error notDirectory
  else
    let files := t.below path
    if files.isEmpty && !path.isEmpty then .error noSuchFile else .ok files

/-- Writes a file below a directory. -/
def write (t : FileTree) (directory s : String) (content : ByteArray) : Except String FileTree :=
  let path := (PathNames.ofText directory) ++ PathNames.ofText s
  if t.hasFile path.dropLast then .error fileExists
  else if t.isBlocked path then .error notDirectory
  else if !(t.below path).isEmpty then .error isDirectory
  else .ok (t.insert path content)

/-- Access to a tree in memory. -/
def access : FileAccess (StateM FileTree) where
  readText s := return (← get).readText s
  readTree s := return (← get).readTree s
  write directory s content := do
    match (← get).write directory s content with
    | .ok t => set t; return .ok ()
    | .error cause => return .error cause

end FileTree

end CrudGen
