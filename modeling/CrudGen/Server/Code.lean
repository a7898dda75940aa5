/-!
# Source text

Generated files are written as `Code`: lines in order, with blocks whose lines stand one step
further in. A text is a line, so that lists of lines can be written down plainly.
-/

namespace CrudGen

/-- Lines of source text. -/
structure Code where
  lines : List String
  deriving DecidableEq, Repr, Inhabited

namespace Code

/-- A text is one line. -/
instance : Coe String Code := ⟨fun line => ⟨[line]⟩⟩

/-- Lines as they are. -/
def ofLines (lines : List String) : Code :=
  ⟨lines⟩

/-- Pieces one after the other. -/
def all (pieces : List Code) : Code :=
  ⟨pieces.flatMap (·.lines)⟩

/-- Pieces that are there only if a condition holds. -/
def when (condition : Bool) (pieces : List Code) : Code :=
  if condition then all pieces else ⟨[]⟩

/-- Pieces for one case or for the other. -/
def either (condition : Bool) (pieces others : List Code) : Code :=
  if condition then all pieces else all others

/-- Pieces for every element of a list. -/
def each (xs : List α) (pieces : α → List Code) : Code :=
  all (xs.flatMap pieces)

/-- Pieces for a value that may be missing. -/
def whenSome (x : Option α) (pieces : α → List Code) : Code :=
  each x.toList pieces

/-- Groups of pieces with an empty line between them. -/
def spaced (groups : List (List Code)) : Code :=
  ⟨[""].intercalate (groups.map fun pieces => (all pieces).lines)⟩

/-- Pieces one step further in. Empty lines stay empty. -/
def indent (step : String) (pieces : List Code) : Code :=
  ⟨(all pieces).lines.map fun line => if line.isEmpty then line else step ++ line⟩

/-- A block between curly brackets: `head` stands before the opening one, `tail` after the closing
one. -/
def block (step head : String) (body : List Code) (tail : String) : Code :=
  all [head ++ " \x7b", indent step body, "\x7d" ++ tail]

/-- Blocks one after the other on common lines, as in the branches of a choice. -/
def blocks (step : String) (branches : List (String × List Code)) (tail : String) : Code :=
  let branch (i : Nat) (b : String × List Code) : Code :=
    all [(if i == 0 then "" else "\x7d ") ++ b.1 ++ " \x7b", indent step b.2]
  all [all (branches.mapIdx branch), "\x7d" ++ tail]

/-- The text of a file. -/
def text (pieces : List Code) : String :=
  String.join ((all pieces).lines.map (· ++ "\n"))

end Code

end CrudGen
