import CrudGen.Proofs.Text.Pieces
import CrudGen.Server.Java.Basic
import CrudGen.Server.Python.Basic
import CrudGen.Server.TypeScript.Basic

/-!
# Literals of a source

A literal stands between two marks, and inside it a backslash stands before every mark and every
backslash. Nothing else is written in another way than it is, so a text of several lines gives a
literal of several lines.

Main results:

* `escaped_escaped` — escaping backslashes, and then marks, escapes each of them once.
* `unbackslashed_escaped` — undoing the escapes gives the text.
* `bareMarks_escaped` — no mark of the text closes the literal.
* `literals_stand_for_text` — what the literals of all languages stand for, and on how many lines.
-/

namespace CrudGen

namespace Text

variable {mark c : Char} {cs special : List Char} {s : String}

-- ---------------------------------------------------------------------------
-- Reading literals
-- ---------------------------------------------------------------------------

/-- What is meant where a backslash lets the character behind it stand for itself. -/
def unbackslashed : List Char → List Char
  | [] => []
  | ['\\'] => []
  | '\\' :: c :: rest => c :: unbackslashed rest
  | c :: rest => c :: unbackslashed rest

/-- The places of the marks that are not escaped, counted from `n` on. -/
def bareMarks (mark : Char) : Nat → List Char → List Nat
  | _, [] => []
  | _, ['\\'] => []
  | n, '\\' :: _ :: rest => bareMarks mark (n + 2) rest
  | n, c :: rest =>
    if c = mark then n :: bareMarks mark (n + 1) rest else bareMarks mark (n + 1) rest

/-- Whether a text stands on one line. -/
def OneLine (s : String) : Prop :=
  ∀ c ∈ s.toList, c ≠ '\n' ∧ c ≠ '\r'

theorem unbackslashed_plain (h : c ≠ '\\') (rest : List Char) :
    unbackslashed (c :: rest) = c :: unbackslashed rest := by
  rw [unbackslashed.eq_def]
  split <;> simp_all

theorem bareMarks_plain (h : c ≠ '\\') (n : Nat) (rest : List Char) : bareMarks mark n (c :: rest) =
    if c = mark then n :: bareMarks mark (n + 1) rest else bareMarks mark (n + 1) rest := by
  rw [bareMarks.eq_def]
  split <;> simp_all

-- ---------------------------------------------------------------------------
-- Writing literals
-- ---------------------------------------------------------------------------

/-- Escaping backslashes first and marks second escapes each of them once. The other way round, the
backslashes before marks would be escaped as well. -/
theorem escaped_escaped (hmark : mark ≠ '\\') (cs : List Char) :
    escaped [mark] (escaped ['\\'] cs) = escaped ['\\', mark] cs := by
  induction cs with
  | nil => rfl
  | cons c rest ih =>
    by_cases hc : c = '\\'
    · simp [escaped, ih, hc, hmark.symm]
    · simp [escaped, ih, hc]

theorem unbackslashed_escaped (mark : Char) (cs : List Char) :
    unbackslashed (escaped ['\\', mark] cs) = cs := by
  induction cs with
  | nil => rfl
  | cons c rest ih =>
    rw [escaped]
    split
    · rw [unbackslashed, ih]
    · rename_i hplain
      have hother : c ≠ '\\' ∧ c ≠ mark := by simpa using hplain
      rw [unbackslashed_plain hother.1, ih]

/-- What is escaped has no mark that is not. -/
theorem bareMarks_escaped (mark : Char) (n : Nat) (cs rest : List Char) :
    bareMarks mark n (escaped ['\\', mark] cs ++ rest) =
      bareMarks mark (n + (escaped ['\\', mark] cs).length) rest := by
  induction cs generalizing n with
  | nil => rfl
  | cons c more ih =>
    rw [escaped]
    split
    · rw [List.cons_append, List.cons_append, bareMarks, ih, List.length_cons, List.length_cons,
        Nat.add_assoc, Nat.add_comm 2]
    · rename_i hplain
      have hother : c ≠ '\\' ∧ c ≠ mark := by simpa using hplain
      rw [List.cons_append, bareMarks_plain hother.1, if_neg hother.2, ih, List.length_cons,
        Nat.add_assoc, Nat.add_comm 1]

theorem mem_escaped_of_mem (h : c ∈ cs) : c ∈ escaped special cs := by
  induction cs with
  | nil => cases h
  | cons d rest ih =>
    rw [escaped]
    rcases List.mem_cons.1 h with rfl | h
    · split <;> simp
    · split <;> simp [ih h]

theorem toList_backslashed (mark : Char) (s : String) :
    (backslashed mark s).toList = mark :: (escaped ['\\', mark] s.toList ++ [mark]) := by
  rw [backslashed, String.toList_ofList, List.cons_append]

/-- A literal stands on one line if its text does. -/
theorem oneLine_backslashed_iff (hmark : mark ≠ '\n' ∧ mark ≠ '\r') :
    OneLine (backslashed mark s) ↔ OneLine s := by
  constructor
  · intro h c hc
    refine h c ?_
    rw [toList_backslashed]
    exact List.mem_cons_of_mem _ (List.mem_append_left _ (mem_escaped_of_mem hc))
  · intro h c hc
    rcases mem_backslashed hc with rfl | rfl | hc
    · exact hmark
    · decide
    · exact h c hc

/-- A literal between two marks that stands for a text: no mark but these two closes it, undoing the
escapes between them gives the text, and it has as few lines as its text. -/
structure StandsFor (mark : Char) (literal s : String) : Prop where
  marks   : bareMarks mark 0 literal.toList = [0, literal.length - 1]
  ends    : literal.toList.head? = some mark ∧ literal.toList.getLast? = some mark
  meaning : unbackslashed literal.toList.tail.dropLast = s.toList
  line    : OneLine literal ↔ OneLine s
  /-- Backslashes are escaped before the marks are. -/
  steps   : literal.toList.tail.dropLast = escaped [mark] (escaped ['\\'] s.toList)

theorem standsFor_backslashed (hmark : mark ≠ '\\' ∧ mark ≠ '\n' ∧ mark ≠ '\r') (s : String) :
    StandsFor mark (backslashed mark s) s := by
  have hbody : (backslashed mark s).toList.tail.dropLast = escaped ['\\', mark] s.toList := by
    rw [toList_backslashed, List.tail_cons, List.dropLast_concat]
  refine ⟨?_, ?_, ?_, oneLine_backslashed_iff hmark.2, ?_⟩
  · rw [← String.length_toList, toList_backslashed, bareMarks_plain hmark.1, if_pos rfl,
      bareMarks_escaped, bareMarks_plain hmark.1, if_pos rfl, bareMarks]
    simp [Nat.add_comm]
  · rw [toList_backslashed, ← List.cons_append, List.getLast?_concat]
    exact ⟨rfl, rfl⟩
  · rw [hbody, unbackslashed_escaped]
  · rw [hbody, escaped_escaped hmark.1]

end Text

open Text

/-- **Literals.** Whatever the text, its literal in each language stands for it. It stands on one
line if and only if the text does. -/
theorem literals_stand_for_text (s : String) :
    StandsFor '"' (quote s) s ∧ StandsFor '"' (Java.literal s) s ∧
      StandsFor '"' (Python.literal s) s ∧ StandsFor '\'' (TypeScript.literal s) s := by
  have hdouble := standsFor_backslashed (by decide : '"' ≠ '\\' ∧ '"' ≠ '\n' ∧ '"' ≠ '\r') s
  exact ⟨hdouble, hdouble, hdouble, standsFor_backslashed (by decide) s⟩

/-- The literal of a text of two lines stands on two lines. -/
theorem literal_on_two_lines :
    Python.literal "a\nb" = "\"a\nb\"" ∧ ¬ OneLine (Python.literal "a\nb") := by
  refine ⟨by decide, fun h => ?_⟩
  exact absurd rfl (h '\n' (by decide)).1

end CrudGen
