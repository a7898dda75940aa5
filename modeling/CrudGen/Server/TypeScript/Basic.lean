import CrudGen.Server.Blueprint
import CrudGen.Server.Code
import CrudGen.Text.Basic

/-!
# TypeScript sources

Literals, primary keys and relations as they are written in TypeScript.
-/

namespace CrudGen.TypeScript

/-- The web frameworks that TypeScript servers are generated for. -/
inductive Framework where
  | express | nest
  deriving DecidableEq, Repr, Inhabited

/-- A text as a literal. -/
def literal (s : String) : String :=
  Text.backslashed '\'' s

/-- A block with two blanks to a step. -/
def block (head : String) (body : List Code) (tail : String := "") : Code :=
  Code.block "  " head body tail

/-- Blocks on common lines with two blanks to a step. -/
def blocks (branches : List (String × List Code)) (tail : String := "") : Code :=
  Code.blocks "  " branches tail

/-- A call with an object that stands on lines of its own. -/
def call (head : String) (members : List Code) (tail : String := "") : Code :=
  Code.all [head ++ "(\x7b", Code.indent "  " members, "\x7d)" ++ tail]

/-- The members of the primary key. -/
def keyNames (e : Entity) : List String :=
  e.keyFields.map (·.name)

/-- The primary key as parameters. -/
def keyParams (e : Entity) : String :=
  ", ".intercalate (e.keyFields.map fun f => s!"{f.name}: {f.type.inner}")

/-- The primary key as arguments. -/
def keyArgs (e : Entity) : String :=
  ", ".intercalate (keyNames e)

/-- A part of a key that comes as text, as a value of its own type. -/
def parsed (f : Field) (source : String) : String :=
  if f.type.inner == "number" then s!"Number({source})" else source

/-- The type of the member that a relation is. -/
def relationType (r : Relation) : String :=
  if r.kind.isCollection then s!"{r.targetEntity}[]" else r.targetEntity

end CrudGen.TypeScript
