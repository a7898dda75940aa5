import CrudGen.Sql.Dialect
import CrudGen.Target.Key

/-!
# Arguments of the command line

A command stands after the options that all commands share. Options have long names, some also a
letter; a value follows its option, or stands behind `=`. After `--` nothing is an option.
-/

namespace CrudGen

/-- What `generate` is asked for. -/
structure GenerateOptions where
  ddl : String
  targets : List TargetKey
  name : String := "app"
  features : List String := []
  noFeatures : List String := []
  dialect : Sql.Dialect := .auto
  out : Option String := none
  scaffold : Option String := none
  json : Bool := false

/-- What the program is asked for. -/
inductive Command where
  | generate (options : GenerateOptions)
  | targets
  | inspect (ddl : String) (dialect : Sql.Dialect)

/-- A command with the file of profiles to use. -/
structure Arguments where
  profiles : Option String
  command : Command

namespace Arguments

/-- An option that may be given. -/
structure OptionSpec where
  long : String
  short : Option Char := none
  takesValue : Bool := true
  repeatable : Bool := false

/-- The option that all commands share. -/
def sharedSpecs : List OptionSpec :=
  [{ long := "profiles" }]

/-- The options of `generate`. -/
def generateSpecs : List OptionSpec := sharedSpecs ++ [
  { long := "target", short := some 't', repeatable := true },
  { long := "name" },
  { long := "feature", repeatable := true },
  { long := "no-feature", repeatable := true },
  { long := "dialect" },
  { long := "out", short := some 'o' },
  { long := "scaffold" },
  { long := "json", takesValue := false }]

/-- The options of `inspect`. -/
def inspectSpecs : List OptionSpec := sharedSpecs ++ [{ long := "dialect" }]

/-- What was given: options with their values in order, and other arguments. -/
structure Given where
  options : List (String × String) := []
  positionals : List String := []

namespace Given

/-- The values of an option in order. -/
def values (g : Given) (long : String) : List String :=
  (g.options.filter (·.1 == long)).map (·.2)

/-- The last value of an option. -/
def value? (g : Given) (long : String) : Option String :=
  (g.values long).getLast?

/-- Adds an option, which may be given once unless it is repeatable. -/
def withOption (g : Given) (spec : OptionSpec) (value : String) : Option Given :=
  if !spec.repeatable && (g.value? spec.long).isSome then none
  else some { g with options := g.options ++ [(spec.long, value)] }

end Given

/-- An argument that is an option, with the value that stands in it. -/
def option? (specs : List OptionSpec) (arg : String) : Option (OptionSpec × Option String) :=
  match arg.toList with
  | '-' :: '-' :: long =>
    match Text.splitOnce (· == '=') (String.ofList long) with
    | some (name, value) => (specs.find? (·.long == name)).map fun spec => (spec, some value)
    | none => (specs.find? (·.long == String.ofList long)).map fun spec => (spec, none)
  | '-' :: short :: rest =>
    (specs.find? (·.short == some short)).map fun spec =>
      match rest with
      | [] => (spec, none)
      | '=' :: value => (spec, some (String.ofList value))
      | value => (spec, some (String.ofList value))
  | _ => none

/-- Whether an argument looks like an option. A dash alone does not. -/
def isDashed (arg : String) : Bool :=
  match arg.toList with
  | '-' :: _ :: _ => true
  | _ => false

/-- Reads options and other arguments. Reading ends before the first argument that is no option if
`stops` holds. -/
def read (specs : List OptionSpec) (stops : Bool) (g : Given) :
    List String → Option (Given × List String)
  | [] => some (g, [])
  | "--" :: rest =>
    if stops then none else some ({ g with positionals := g.positionals ++ rest }, [])
  | arg :: rest =>
    if isDashed arg then
      match option? specs arg, rest with
      | none, _ => none
      | some (spec, none), value :: more =>
        if !spec.takesValue then
          (g.withOption spec "").bind fun g => read specs stops g (value :: more)
        else if isDashed value then none
        else (g.withOption spec value).bind fun g => read specs stops g more
      | some (spec, none), [] =>
        if spec.takesValue then none else (g.withOption spec "").map fun g => (g, [])
      | some (spec, some value), rest =>
        if spec.takesValue then (g.withOption spec value).bind fun g => read specs stops g rest
        else none
    else if stops then some (g, arg :: rest)
    else read specs stops { g with positionals := g.positionals ++ [arg] } rest

/-- A path, which may not be empty. -/
def path? (s : String) : Option String :=
  if s.isEmpty then none else some s

/-- The path that an option may give. -/
def pathOption? (g : Given) (long : String) : Option (Option String) :=
  match g.value? long with
  | none => some none
  | some s => (path? s).map some

/-- The one argument that is no option. -/
def script? (g : Given) : Option String :=
  match g.positionals with
  | [s] => path? s
  | _ => none

/-- The dialect that is asked for. -/
def dialect? (g : Given) : Option Sql.Dialect :=
  match g.value? "dialect" with
  | none => some .auto
  | some s => (Sql.Dialect.ofName s).toOption

/-- What `generate` is asked for. -/
def generate? (g : Given) : Option Command := do
  let targets ← (g.values "target").mapM fun s => (TargetKey.ofText s).toOption
  if targets.isEmpty then none
  let ddl ← script? g
  let dialect ← dialect? g
  let out ← pathOption? g "out"
  let scaffold ← pathOption? g "scaffold"
  return .generate {
    ddl, targets, dialect, out, scaffold
    name := (g.value? "name").getD "app"
    features := g.values "feature"
    noFeatures := g.values "no-feature"
    json := (g.value? "json").isSome }

/-- What a command is asked for. -/
def command? (name : String) (args : List String) : Option (Given × Command) :=
  match name with
  | "generate" => do
    let (g, _) ← read generateSpecs false {} args
    return (g, ← generate? g)
  | "targets" => do
    let (g, _) ← read sharedSpecs false {} args
    if g.positionals.isEmpty then some (g, .targets) else none
  | "inspect" => do
    let (g, _) ← read inspectSpecs false {} args
    return (g, .inspect (← script? g) (← dialect? g))
  | _ => none

/-- The arguments of the program, unless they are wrong. Of two files of profiles that behind the
command counts. -/
def ofList? (args : List String) : Option Arguments := do
  let (g, rest) ← read sharedSpecs true {} args
  let name :: more := rest | none
  let (own, command) ← command? name more
  let first ← pathOption? g "profiles"
  let second ← pathOption? own "profiles"
  return { profiles := second.or first, command }

end Arguments

end CrudGen
