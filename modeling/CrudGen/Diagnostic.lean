/-!
# Diagnostics

What a user is told about a script and about the targets it was generated for. Every diagnostic has
a severity, a code and a text.
-/

namespace CrudGen

open String (intercalate)

/-- A statement that contributes nothing. Statements are counted from one. -/
structure StatementError where
  statement : Nat
  excerpt : String
  reason : String
  deriving DecidableEq, Repr, Inhabited

/-- The text of a statement error. -/
def StatementError.text (e : StatementError) : String :=
  "statement " ++ toString e.statement ++ ": " ++ e.reason ++ " (near `" ++ e.excerpt ++ "`)"

/-- Tables that refer to each other in a circle. -/
structure Cycle where
  tables : List String
  deriving DecidableEq, Repr, Inhabited

/-- The text of a warning about a circle. -/
def Cycle.text (c : Cycle) : String :=
  "foreign-key cycle between " ++ intercalate ", " c.tables

/-- A foreign key that makes no relationship. -/
structure UnresolvedReference where
  table : String
  columns : List String
  target : String
  reason : String
  deriving DecidableEq, Repr, Inhabited

/-- The text of a warning about a foreign key. -/
def UnresolvedReference.text (u : UnresolvedReference) : String :=
  u.table ++ "(" ++ intercalate ", " u.columns ++ ") references " ++ u.target ++ ": " ++ u.reason

/-- A target that nothing can be generated for. -/
structure UnsupportedTarget where
  target : String
  reason : String
  deriving DecidableEq, Repr, Inhabited

/-- The text of an error about a target. -/
def UnsupportedTarget.text (u : UnsupportedTarget) : String :=
  "unsupported target '" ++ u.target ++ "': " ++ u.reason

/-- A column whose type a target declines. -/
structure UnmappedType where
  target : String
  table : String
  column : String
  sqlType : String
  fallback : String
  deriving DecidableEq, Repr, Inhabited

/-- The text of a warning about a type. -/
def UnmappedType.text (u : UnmappedType) : String :=
  u.target ++ ": " ++ u.table ++ "." ++ u.column ++ " has type '" ++ u.sqlType ++ "', using '"
    ++ u.fallback ++ "'"

/-- How bad a diagnostic is. -/
inductive Severity where
  | warning | error
  deriving DecidableEq, Repr, Inhabited

/-- The name of a severity. -/
def Severity.name : Severity → String
  | .warning => "warning"
  | .error => "error"

/-- Something a user should be told. -/
inductive Diagnostic where
  | parse (e : StatementError)
  | cycle (c : Cycle)
  | unsupportedTarget (u : UnsupportedTarget)
  | unmappedType (u : UnmappedType)
  | unresolvedReference (u : UnresolvedReference)
  | generation (target message : String)
  deriving DecidableEq, Repr, Inhabited

namespace Diagnostic

/-- How bad a diagnostic is. -/
def severity : Diagnostic → Severity
  | .parse _ | .unsupportedTarget _ | .generation .. => .error
  | .cycle _ | .unmappedType _ | .unresolvedReference _ => .warning

/-- A short label for tables. -/
def code : Diagnostic → String
  | .parse _ => "parse"
  | .cycle _ => "cycle"
  | .unsupportedTarget _ => "unsupported-target"
  | .unmappedType _ => "unmapped-type"
  | .unresolvedReference _ => "unresolved-reference"
  | .generation .. => "generation"

/-- What a diagnostic says. -/
def text : Diagnostic → String
  | .parse e => e.text
  | .cycle c => c.text
  | .unsupportedTarget u => u.text
  | .unmappedType u => u.text
  | .unresolvedReference u => u.text
  | .generation target message => target ++ ": " ++ message

end Diagnostic

end CrudGen
