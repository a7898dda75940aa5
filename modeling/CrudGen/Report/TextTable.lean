import CrudGen.Text.Width

/-!
# Text tables

Left-aligned columns, two blanks apart, measured in display columns. Blanks at the end of a line
are dropped.
-/

namespace CrudGen

/-- A line of headers above lines of cells. -/
structure TextTable where
  headers : List String
  rows : List (List String) := []
  deriving Repr, Inhabited

namespace TextTable

/-- Whether the table has no lines below its headers. -/
def isEmpty (t : TextTable) : Bool :=
  t.rows.isEmpty

/-- Place by place the larger of two lists of widths; the longer list is kept to its end. -/
def widest : List Nat → List Nat → List Nat
  | [], ws => ws
  | vs, [] => vs
  | v :: vs, w :: ws => max v w :: widest vs ws

/-- The width of every column. -/
def widths (t : TextTable) : List Nat :=
  (t.headers :: t.rows).foldl (fun ws row => widest ws (row.map Text.width)) []

/-- The cells of a line, padded to their columns except for the last one. -/
def cells : List Nat → List String → List Char
  | _, [] => []
  | _, [cell] => cell.toList
  | [], cell :: rest => cell.toList ++ [' ', ' '] ++ cells [] rest
  | w :: ws, cell :: rest =>
    cell.toList ++ List.replicate (w - Text.width cell + 2) ' ' ++ cells ws rest

/-- One line of the table. -/
def line (ws : List Nat) (row : List String) : String :=
  String.ofList (((cells ws row).reverse.dropWhile (· == ' ')).reverse ++ ['\n'])

/-- The whole table. -/
def render (t : TextTable) : String :=
  String.join ((t.headers :: t.rows).map (line t.widths))

end TextTable

end CrudGen
