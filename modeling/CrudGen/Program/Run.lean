import CrudGen.Program.Arguments
import CrudGen.Program.Document
import CrudGen.Program.FileAccess
import CrudGen.Report.Project
import CrudGen.Report.Schema
import CrudGen.Target.Config

/-!
# Running the program

What the program prints and how it ends, for any way to read and write files.
-/

namespace CrudGen

namespace Program

/-- What was printed so far. -/
structure Printed where
  out : String := ""
  err : String := ""

/-- Why the program ends early, with what lies behind it. -/
structure Failure where
  message : String
  cause : Option String := none

/-- How a failure is printed. -/
def Failure.text (f : Failure) : String :=
  "Error: " ++ f.message ++ "\n" ++ (match f.cause with
    | some cause => "\nCaused by:\n    " ++ cause ++ "\n"
    | none => "")

/-- A run that prints, reads and writes, and that may fail. -/
abbrev Run (m : Type → Type) := ExceptT Failure (StateT Printed m)

variable {m : Type → Type} [Monad m]

/-- Prints a text. -/
def say (s : String) : Run m Unit :=
  modify fun p => { p with out := p.out ++ s }

/-- Prints a text beside the output. -/
def warn (s : String) : Run m Unit :=
  modify fun p => { p with err := p.err ++ s }

/-- Reads or writes; what fails is described by `message`. -/
def attempt (action : m (Except String α)) (message : String) : Run m α := do
  match ← (action : m _) with
  | .ok a => return a
  | .error cause => throw { message, cause := some cause }

/-- The profiles of a file, or the known ones. -/
def profiles (files : FileAccess m) : Option String → Run m ProfileSet
  | none => return .builtIn
  | some path => do
    let read ← (files.readText path : m _)
    match read with
    | .error cause => throw { message := s!"failed to read {path}: {cause}", cause := some cause }
    | .ok text =>
      match ProfileSet.ofToml text with
      | .ok ps => return ps
      | .error e => throw { message := e.message }

/-- Reads a script. -/
def script (files : FileAccess m) (path : String) : Run m String :=
  attempt (files.readText path) s!"failed to read {path}"

/-- The request that the arguments make. -/
def request (o : GenerateOptions) (ddl : String) : GenerationRequest where
  ddl
  targets := o.targets
  project := o.name
  toggles :=
    o.noFeatures.foldl (·.set · false) (o.features.foldl (·.set · true) {})
  dialect := o.dialect

/-- Writes the files of an archive below a directory. -/
def writeArchive (files : FileAccess m) (a : Archive) (directory : String) : Run m Unit :=
  a.files.forM fun (path, f) =>
    attempt (files.write directory path f.content) s!"failed to write {directory}"

/-- Generates projects, and prints what they hold. -/
def generate (files : FileAccess m) (g : Generator) (o : GenerateOptions) : Run m Unit := do
  let generation ← match g.run (request o (← script files o.ddl)) with
    | .ok generation => pure generation
    | .error e => throw { message := e.message }
  if !generation.diagnostics.isEmpty then warn (Diagnostic.report generation.diagnostics)
  if generation.fileSets.isEmpty then throw { message := "no target was generated" }
  if o.json then say (generation.toJson.pretty "" ++ "\n")
  let scaffolding ← match o.scaffold with
    | none => pure {}
    | some directory =>
      Scaffolding.ofFiles <$>
        attempt (files.readTree directory) s!"failed to read scaffolding {directory}"
  let archive ← match Archive.assemble generation.fileSets scaffolding with
    | .ok archive => pure archive
    | .error c => throw { message := c.message }
  if let some directory := o.out then writeArchive files archive directory
  if !o.json then say archive.report

/-- Prints what is known of a script. -/
def inspect (files : FileAccess m) (path : String) (dialect : Sql.Dialect) : Run m Unit := do
  let extraction := Extraction.ofScript (← script files path) dialect
  let diagnostics :=
    extraction.errors.map Diagnostic.parse
      ++ extraction.unresolved.map Diagnostic.unresolvedReference
  say (Schema.infer extraction.catalog).report
  if !diagnostics.isEmpty then warn (Diagnostic.report diagnostics)

/-- Does what the arguments ask for. -/
def perform (files : FileAccess m) (args : Arguments) : Run m Unit := do
  let generator : Generator := { profiles := ← profiles files args.profiles, emitters := .builtIn }
  match args.command with
  | .generate options => generate files generator options
  | .targets => say generator.report
  | .inspect path dialect => inspect files path dialect

/-- How a run ended. -/
structure Outcome where
  code : Nat
  out : String := ""
  err : String := ""

/-- Runs the program. Wrong arguments end it at once. -/
def run (files : FileAccess m) (args : List String) : m Outcome :=
  match Arguments.ofList? args with
  | none => return { code := 2 }
  | some arguments => do
    let (result, printed) ← ((perform files arguments).run.run {} : m _)
    return match result with
      | .ok () => { code := 0, out := printed.out, err := printed.err }
      | .error failure => { code := 1, out := printed.out, err := printed.err ++ failure.text }

end Program

end CrudGen
