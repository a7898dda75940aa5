import CrudGen.Server.Code

/-!
# Source text — reading lines

Source text is read line by line, each line without the blanks before it, so that it does not matter
how far in a block stands.

Main results:

* `read_all`, `read_when`, `read_each`, `read_whenSome`, `read_spaced`, `read_block`, `read_blocks`
  — pieces are read one after the other.
* `Says.append` — what a line says may be settled by how it starts.
-/

namespace CrudGen.Code

variable {α β : Type}

/-- A line without the blanks before it. -/
def unindented (line : String) : List Char :=
  line.toList.dropWhile (· == ' ')

/-- What is read of some code. -/
def read (f : List Char → List β) (c : Code) : List β :=
  c.lines.flatMap fun line => f (unindented line)

section Pieces

variable (f : List Char → List β)

/-- A line is read without the blanks before it. -/
@[simp] theorem read_line (line : String) : read f line = f (unindented line) :=
  List.flatMap_singleton _ _

/-- Pieces are read one after the other. -/
@[simp] theorem read_all (pieces : List Code) : (all pieces).read f = pieces.flatMap (read f) :=
  List.flatMap_assoc

/-- Pieces that are there under a condition are read under it. -/
@[simp] theorem read_when (condition : Bool) (pieces : List Code) :
    (when condition pieces).read f = if condition then pieces.flatMap (read f) else [] := by
  cases condition with
  | true => exact read_all f pieces
  | false => rfl

/-- A loop is read element by element. -/
@[simp] theorem read_each (xs : List α) (pieces : α → List Code) :
    (each xs pieces).read f = xs.flatMap fun x => (pieces x).flatMap (read f) := by
  rw [each, read_all, List.flatMap_assoc]

/-- A piece that may be missing is read if it is there. -/
@[simp] theorem read_whenSome (x : Option α) (pieces : α → List Code) :
    (whenSome x pieces).read f = x.toList.flatMap fun a => (pieces a).flatMap (read f) :=
  read_each f _ _

/-- Blanks before a line do not matter. -/
theorem unindented_append {step : String} (h : ∀ c ∈ step.toList, c = ' ') (line : String) :
    unindented (step ++ line) = unindented line := by
  rw [unindented, String.toList_append, List.dropWhile_append_of_pos, unindented]
  exact fun c hc => beq_iff_eq.2 (h c hc)

/-- A block may stand as far in as it likes. -/
theorem read_indent {step : String} (h : ∀ c ∈ step.toList, c = ' ') (pieces : List Code) :
    (indent step pieces).read f = pieces.flatMap (read f) := by
  rw [← read_all, indent, read, read, List.flatMap_map]
  congr 1
  funext line
  split
  · rfl
  · rw [unindented_append h]

/-- Groups are read one after the other if an empty line says nothing. -/
theorem read_spaced (h : f [] = []) (groups : List (List Code)) :
    (spaced groups).read f = groups.flatMap (·.flatMap (read f)) := by
  have hempty : f (unindented "") = [] := h
  rw [spaced, read]
  induction groups with
  | nil => rfl
  | cons pieces rest ih =>
    have hpieces := read_all f pieces
    rw [read] at hpieces
    cases rest with
    | nil => simpa using hpieces
    | cons next more =>
      rw [List.map_cons, List.map_cons, List.intercalate_cons_cons, List.flatMap_append,
        List.flatMap_append, List.flatMap_singleton, hempty, List.append_nil, hpieces,
        List.flatMap_cons]
      exact congrArg (pieces.flatMap (read f) ++ ·) ih

end Pieces

-- ---------------------------------------------------------------------------
-- Lines
-- ---------------------------------------------------------------------------

/-- What a line says that starts with a text, whatever follows. -/
def Says (f : List Char → List β) (text : String) (out : List β) : Prop :=
  ∀ rest, f ((text.toList ++ rest).dropWhile (· == ' ')) = out

section Says

variable {f : List Char → List β} {a b text : String} {out : List β}

/-- What a line says by its start it says with anything behind it. -/
theorem Says.append (h : Says f a out) : Says f (a ++ b) out := by
  intro rest
  rw [String.toList_append, List.append_assoc]
  exact h _

/-- A literal says what its characters say whatever follows. -/
theorem Says.literal {cs : List Char} (h : ∀ rest, f ((cs ++ rest).dropWhile (· == ' ')) = out) :
    Says f (String.ofList cs) out := by
  intro rest
  rw [String.toList_ofList]
  exact h rest

/-- What is read of a literal is read of its characters. -/
theorem read_literal {cs : List Char} (h : f (cs.dropWhile (· == ' ')) = out) :
    f (unindented (String.ofList cs)) = out := by
  rw [unindented, String.toList_ofList, h]

/-- A line says what its text says. -/
theorem Says.line (h : Says f text out) : f (unindented text) = out := by
  have hall := h []
  rwa [List.append_nil] at hall

end Says

-- ---------------------------------------------------------------------------
-- Blocks
-- ---------------------------------------------------------------------------

section Blocks

variable {f : List Char → List β} {step head tail : String} (hstep : ∀ c ∈ step.toList, c = ' ')
  (hclose : f (unindented ("\x7d" ++ tail)) = [])
include hstep hclose

/-- If brackets say nothing, a block says what its head and its lines say. -/
theorem read_block (body : List Code) : (block step head body tail).read f =
    f (unindented (head ++ " \x7b")) ++ body.flatMap (read f) := by
  rw [block, read_all, List.flatMap_cons, List.flatMap_cons, List.flatMap_singleton, read_line,
    read_line, read_indent f hstep, hclose, List.append_nil]

/-- Blocks on common lines say what their heads and their lines say. -/
theorem read_blocks (head' : String) (body body' : List Code) :
    (blocks step [(head, body), (head', body')] tail).read f =
      f (unindented (head ++ " \x7b")) ++ body.flatMap (read f) ++
        (f (unindented ("\x7d " ++ head' ++ " \x7b")) ++ body'.flatMap (read f)) := by
  have hfirst :
      ((if (0 == 0 : Bool) then "" else "\x7d ") ++ head ++ " \x7b") = head ++ " \x7b" := by
    simp
  simp only [blocks, List.mapIdx_cons, List.mapIdx_nil, read_all, List.flatMap_cons,
    List.flatMap_nil, read_line, read_indent f hstep, hclose, List.append_nil, hfirst]
  rfl

end Blocks

end CrudGen.Code
