import CrudGen.Program.Run

/-!
# The program

Runs the program on the files of the system.
-/

namespace CrudGen.Program

/-- The text that the system has for a failure. -/
def reason : IO.Error → String
  | .noFileOrDirectory .. => noSuchFile
  | .alreadyExists _ 17 _ => fileExists
  | .inappropriateType _ 20 _ => notDirectory
  | .inappropriateType _ 21 _ => isDirectory
  | .permissionDenied .. => "Permission denied (os error 13)"
  | e => toString e

/-- What an action gives, or why it fails. -/
def attempted (action : IO (Except String α)) : IO (Except String α) := do
  match ← action.toBaseIO with
  | .ok result => return result
  | .error e => return .error (reason e)

/-- The text of a file. -/
def readFile (path : String) : IO (Except String String) :=
  attempted do
    match String.fromUTF8? (← IO.FS.readBinFile path) with
    | some text => return .ok text
    | none => return .error notText

/-- Every file below a directory. -/
def readDirectory (directory : String) : IO (Except String (List (PathNames × ByteArray))) :=
  attempted do
    let root ← IO.FS.realPath directory
    let paths ← (← root.walkDir).toList.filterM fun path => return !(← path.isDir)
    let files ← paths.mapM fun path => do
      return (path.components.drop root.components.length, ← IO.FS.readBinFile path)
    return .ok files

/-- Makes a directory and those on the way to it. Its names stand from the last to the first. -/
def makeDirectory : List String → IO Unit
  | [] => return ()
  | name :: parents => do
    let path := "/".intercalate (name :: parents).reverse
    match ← (IO.FS.createDir path).toBaseIO with
    | .ok () => return ()
    | .error (.noFileOrDirectory ..) =>
      makeDirectory parents
      IO.FS.createDir path
    | .error (.alreadyExists f code details) =>
      unless ← (← IO.FS.realPath path).isDir do throw (.alreadyExists f code details)
    | .error e => throw e

/-- Writes a file below a directory. -/
def writeFile (directory path : String) (content : ByteArray) : IO (Except String Unit) :=
  attempted do
    let whole := directory ++ "/" ++ path
    let names := (Text.splitAll (· == '/') whole.toList).map String.ofList
    makeDirectory names.reverse.tail
    IO.FS.writeBinFile whole content
    return .ok ()

/-- Access to the files of the system. -/
def systemFiles : FileAccess IO where
  readText := readFile
  readTree := readDirectory
  write := writeFile

end CrudGen.Program

/-- Runs the program on its arguments. -/
def main (args : List String) : IO UInt32 := do
  let outcome ← CrudGen.Program.run CrudGen.Program.systemFiles args
  (← IO.getStdout).putStr outcome.out
  (← IO.getStderr).putStr outcome.err
  return outcome.code.toUInt32
