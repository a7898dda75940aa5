import CrudGen.Proofs.Naming.Words
import CrudGen.Server.Statements
import Mathlib.Data.List.Forall2

/-!
# Statements — words, names and parameters

A statement is read as the database reads it: as words, quoted names, numbered parameters and
symbols. Inside a name a doubled quote is a quote, and nothing else that stands there counts.

A text that is read on its own may be followed by anything that goes on neither with a name nor with
a number. `Reads` says what is read of such a text; `Ends` says that even that does not matter.

Main results:

* `reads_quoteName`, `reads_parameter` — a quoted name is read as that name, a parameter as its
  number.
* `Reads.append`, `reads_intercalate` — texts that follow each other are read one after the other.
-/

namespace CrudGen.Sql

/-- What a statement is made of. -/
inductive Lexeme where
  | word (text : String)
  | name (text : String)
  | parameter (n : Nat)
  | symbol (c : Char)
  deriving DecidableEq, Repr

namespace Lexeme

-- ---------------------------------------------------------------------------
-- Reading
-- ---------------------------------------------------------------------------

/-- What is being read, with its characters in reverse. `closing` is a name behind a quote that ends
it unless another one follows. -/
inductive Mode where
  | between
  | word (cs : List Char)
  | name (cs : List Char)
  | closing (cs : List Char)
  | parameter (n : Nat)
  deriving DecidableEq, Repr

/-- A character that goes on with a word. -/
def isLetter (c : Char) : Bool :=
  c.isAlphanum || c == '_'

namespace Mode

/-- What has been read when nothing more goes on with it. -/
def ended : Mode → List Lexeme
  | between => []
  | word cs => [.word (String.ofList cs.reverse)]
  | name cs | closing cs => [.name (String.ofList cs.reverse)]
  | parameter n => [.parameter n]

/-- What a character starts, and what it is on its own. -/
def opened (c : Char) : Mode × List Lexeme :=
  if c == '"' then (name [], [])
  else if c == '$' then (parameter 0, [])
  else if isLetter c then (word [c], [])
  else if c == ' ' then (between, [])
  else (between, [.symbol c])

/-- A mode after a character that goes on with it. -/
def goOn? (c : Char) : Mode → Option Mode
  | between => none
  | word cs => if isLetter c then some (word (c :: cs)) else none
  | name cs => if c == '"' then some (closing cs) else some (name (c :: cs))
  | closing cs => if c == '"' then some (name (c :: cs)) else none
  | parameter n =>
    if c.isDigit then some (parameter (10 * n + (c.toNat - '0'.toNat))) else none

end Mode

/-- What is read of some characters. -/
def readFrom (m : Mode) : List Char → List Lexeme
  | [] => m.ended
  | c :: rest =>
    match m.goOn? c with
    | some m' => readFrom m' rest
    | none => m.ended ++ ((Mode.opened c).2 ++ readFrom (Mode.opened c).1 rest)

end Lexeme

open Lexeme

/-- What a statement is made of. -/
def lexemes (sql : String) : List Lexeme :=
  readFrom .between sql.toList

-- ---------------------------------------------------------------------------
-- Texts in a statement
-- ---------------------------------------------------------------------------

/-- Whether some characters go on neither with a name nor with a word or number. -/
def Apart (cs : List Char) : Prop :=
  ∀ c ∈ cs.head?, c ≠ '"' ∧ isLetter c = false

instance : DecidablePred Apart := fun cs =>
  inferInstanceAs (Decidable (∀ c ∈ cs.head?, c ≠ '"' ∧ isLetter c = false))

/-- A text that is read as some lexemes, whatever follows. -/
def Ends (text : String) (ls : List Lexeme) : Prop :=
  ∀ rest, readFrom .between (text.toList ++ rest) = ls ++ readFrom .between rest

/-- A text that is read as some lexemes, unless what follows goes on with it. -/
def Reads (text : String) (ls : List Lexeme) : Prop :=
  ∀ rest, Apart rest → readFrom .between (text.toList ++ rest) = ls ++ readFrom .between rest

variable {a b text : String} {la lb ls : List Lexeme}

/-- What stands apart from the text before it does so with anything behind it. -/
theorem Apart.append (h : Apart a.toList) (hne : a ≠ "") : Apart (a ++ b).toList := by
  obtain ⟨c, cs, hcs⟩ := List.exists_cons_of_ne_nil (String.toList_eq_nil_iff.not.2 hne)
  rw [hcs] at h
  rw [String.toList_append, hcs]
  exact h

/-- A text whose end is fixed is read as it stands. -/
theorem Ends.reads (h : Ends text ls) : Reads text ls :=
  fun rest _ => h rest

/-- What a text is read as is what its lexemes are. -/
theorem Reads.lexemes (h : Reads text ls) : lexemes text = ls := by
  have hall := h [] fun c hc => absurd hc (by simp)
  rw [List.append_nil] at hall
  rw [Sql.lexemes, hall]
  exact List.append_nil ls

/-- Behind a text whose end is fixed, anything is read as if it stood alone. -/
theorem Ends.append (ha : Ends a la) (hb : Reads b lb) : Reads (a ++ b) (la ++ lb) := by
  intro rest hrest
  rw [String.toList_append, List.append_assoc, ha, hb rest hrest, List.append_assoc]

/-- A text is read as if it stood alone in front of what stands apart from it. -/
theorem Reads.append (ha : Reads a la) (hb : Reads b lb) (h : Apart b.toList) :
    Reads (a ++ b) (la ++ lb) := by
  intro rest hrest
  have happart : Apart (b.toList ++ rest) := by
    cases hcs : b.toList with
    | nil => exact hrest
    | cons c cs => exact fun d hd => h d (hcs ▸ hd)
  rw [String.toList_append, List.append_assoc, ha _ happart, hb rest hrest, List.append_assoc]

/-- The characters of a literal are what it is made from. -/
theorem Ends.literal {cs : List Char}
    (h : ∀ rest, readFrom .between (cs ++ rest) = ls ++ readFrom .between rest) :
    Ends (String.ofList cs) ls := by
  intro rest
  rw [String.toList_ofList, h]

/-- A text that may stand right behind a name, and what it is read as. -/
structure Behind (text : String) (ls : List Lexeme) : Prop where
  apart : Apart text.toList
  reads : Reads text ls

/-- A text that sets off what stands before it from what stands behind it. -/
structure SetsOff (text : String) (ls : List Lexeme) : Prop where
  ends  : Ends text ls
  apart : Apart text.toList
  some  : text ≠ ""

/-- A literal sets off what stands around it if its own characters are read in any surroundings. -/
theorem SetsOff.literal {cs : List Char}
    (h : ∀ rest, readFrom .between (cs ++ rest) = ls ++ readFrom .between rest)
    (hapart : Apart cs ∧ cs ≠ []) : SetsOff (String.ofList cs) ls where
  ends := .literal h
  apart := by rw [String.toList_ofList]; exact hapart.1
  some := by rw [Ne, ← String.toList_eq_nil_iff, String.toList_ofList]; exact hapart.2

theorem Behind.empty : Behind "" [] :=
  ⟨by decide, fun _ _ => rfl⟩

/-- A text that stands behind another is read after it. -/
theorem Reads.behind (ha : Reads a la) (hb : Behind b lb) : Reads (a ++ b) (la ++ lb) :=
  ha.append hb.reads hb.apart

/-- Two texts that stand behind others do so together. -/
theorem Behind.append (ha : Behind a la) (hb : Behind b lb) : Behind (a ++ b) (la ++ lb) := by
  refine ⟨?_, ha.reads.behind hb⟩
  rw [String.toList_append]
  cases hcs : a.toList with
  | nil => exact hb.apart
  | cons c cs => exact fun d hd => ha.apart d (hcs ▸ hd)

/-- A text between two that it sets off from each other. -/
theorem SetsOff.behind (ha : SetsOff a la) (hb : Reads b lb) : Behind (a ++ b) (la ++ lb) :=
  ⟨ha.apart.append ha.some, ha.ends.append hb⟩

/-- The empty text is read as nothing, whatever follows. -/
theorem ends_empty : Ends "" [] :=
  fun _ => rfl

theorem reads_empty : Reads "" [] :=
  ends_empty.reads

/-- A character that does not go on with a lexeme ends it. -/
theorem readFrom_of_apart {m : Mode} {rest : List Char} (h : ∀ c ∈ rest.head?, m.goOn? c = none) :
    readFrom m rest = m.ended ++ readFrom .between rest := by
  cases rest with
  | nil => exact (List.append_nil _).symm
  | cons c more =>
    rw [readFrom, h c rfl, readFrom]
    rfl

-- ---------------------------------------------------------------------------
-- Names and parameters
-- ---------------------------------------------------------------------------

/-- A name is read up to the first quote that is not doubled. -/
theorem readFrom_name (cs more : List Char) {rest : List Char} (hrest : Apart rest) :
    readFrom (.name cs) (Text.doubled '"' more ++ '"' :: rest) =
      .name (String.ofList (cs.reverse ++ more)) :: readFrom .between rest := by
  induction more generalizing cs with
  | nil =>
    have hclosed : ∀ c ∈ rest.head?, (Mode.closing cs).goOn? c = none := fun c hc => by
      simp [Mode.goOn?, (hrest c hc).1]
    rw [List.append_nil]
    exact readFrom_of_apart hclosed
  | cons c more ih =>
    have hcs : cs.reverse ++ c :: more = (c :: cs).reverse ++ more := by simp
    rw [hcs, ← ih, Text.doubled]
    split
    · rename_i hquote
      subst hquote
      rfl
    · rename_i hother
      have hname : (Mode.name cs).goOn? c = some (.name (c :: cs)) := by simp [Mode.goOn?, hother]
      rw [List.cons_append, readFrom, hname]

/-- A quoted name is read as that name. -/
theorem reads_quoteName (name : String) : Reads (quoteName name) [.name name] := by
  intro rest hrest
  have htext : (quoteName name).toList ++ rest =
      '"' :: (Text.doubled '"' name.toList ++ '"' :: rest) := by
    simp [quoteName, Text.enclosed]
  have hread := readFrom_name [] name.toList hrest
  rw [List.reverse_nil, List.nil_append, String.ofList_toList] at hread
  rw [htext]
  exact hread

/-- A number ends at what is no letter, digit or underscore. -/
theorem goOn?_parameter {c : Char} (h : isLetter c = false) (n : Nat) :
    (Mode.parameter n).goOn? c = none := by
  simp only [isLetter, Char.isAlphanum, Bool.or_eq_false_iff] at h
  simp [Mode.goOn?, h.1.2]

/-- A word ends there too. -/
theorem goOn?_word {c : Char} (h : isLetter c = false) (cs : List Char) :
    (Mode.word cs).goOn? c = none := by
  simp [Mode.goOn?, h]

/-- A text that ends with a word. -/
theorem reads_of_word {word : String} (h : ∀ rest,
    readFrom .between (text.toList ++ rest) = ls ++ readFrom (.word word.toList.reverse) rest) :
    Reads text (ls ++ [Lexeme.word word]) := by
  intro rest hrest
  rw [h, readFrom_of_apart fun c hc => goOn?_word (hrest c hc).2 _, Mode.ended,
    List.reverse_reverse, String.ofList_toList, List.append_assoc]

/-- Digits are read as one number, which goes on with those before them. -/
theorem readFrom_digits {ds : List Char} (h : ∀ c ∈ ds, c.isDigit = true) (n : Nat)
    {rest : List Char}
    (hrest : Apart rest) :
    readFrom (.parameter n) (ds ++ rest) =
      .parameter (Nat.ofDigitChars 10 ds n) :: readFrom .between rest := by
  induction ds generalizing n with
  | nil => exact readFrom_of_apart fun c hc => goOn?_parameter (hrest c hc).2 n
  | cons c more ih =>
    rw [List.forall_mem_cons] at h
    have hnext : (Mode.parameter n).goOn? c =
        some (.parameter (10 * n + (c.toNat - '0'.toNat))) := by
      simp [Mode.goOn?, h.1]
    rw [List.cons_append, readFrom, hnext, Nat.ofDigitChars_cons]
    exact ih h.2 _

/-- A parameter is read as its number. -/
theorem reads_parameter (n : Nat) : Reads (parameter n) [.parameter n] := by
  intro rest hrest
  have hvalue : Nat.ofDigitChars 10 (Naming.digits n) 0 = n := by
    rw [Naming.digits, Nat.toString_eq_ofList_toDigits, String.toList_ofList,
      Nat.ofDigitChars_ten_toDigits]
  have htext : (parameter n).toList ++ rest = '$' :: (Naming.digits n ++ rest) := by
    rw [parameter, String.toList_append]
    rfl
  have hread := readFrom_digits (fun _ => Naming.isDigit_of_mem_digits (n := n)) 0 hrest
  rw [hvalue] at hread
  rw [htext]
  exact hread

-- ---------------------------------------------------------------------------
-- Lists
-- ---------------------------------------------------------------------------

/-- Texts with a separator between them are read with what the separator is read as between
them. -/
theorem reads_intercalate {separator : String} {l : Lexeme} (hseparator : SetsOff separator [l])
    {texts : List String} {lists : List (List Lexeme)}
    (h : List.Forall₂ Reads texts lists) :
    Reads (separator.intercalate texts) ([l].intercalate lists) := by
  induction h with
  | nil => exact reads_empty
  | @cons text ls texts lists htext hrest ih =>
    cases hrest with
    | nil =>
      rw [String.intercalate_singleton, List.intercalate_singleton]
      exact htext
    | cons hnext hmore =>
      rw [String.intercalate_cons_cons, List.intercalate_cons_cons, String.append_assoc,
        List.append_assoc]
      exact htext.behind (hseparator.behind ih)

/-- What is read of texts that are numbered in order. -/
theorem forall₂_mapIdx {α : Type} {f : Nat → α → String} {g : Nat → α → List Lexeme}
    (h : ∀ i x, Reads (f i x) (g i x)) (xs : List α) :
    List.Forall₂ Reads (xs.mapIdx f) (xs.mapIdx g) := by
  induction xs generalizing f g with
  | nil => exact .nil
  | cons x rest ih =>
    rw [List.mapIdx_cons, List.mapIdx_cons]
    exact .cons (h 0 x) (ih fun i => h (i + 1))

/-- Names of a list are set off by commas. -/
theorem setsOff_comma : SetsOff ", " [.symbol ','] :=
  .literal (fun _ => rfl) (by decide)

/-- Conditions are set off by a conjunction. -/
theorem setsOff_and : SetsOff " AND " [.word "AND"] :=
  .literal (fun _ => rfl) (by decide)

/-- The two sides of a comparison are set off by its sign. -/
theorem setsOff_equals : SetsOff " = " [.symbol '='] :=
  .literal (fun _ => rfl) (by decide)

/-- Names with commas between them. -/
def namesRead (names : List String) : List Lexeme :=
  [.symbol ','].intercalate (names.map fun name => [.name name])

/-- A list of names is read as names with commas between them. -/
theorem reads_nameList (names : List String) : Reads (nameList names) (namesRead names) := by
  have hnames : List.Forall₂ Reads (names.map quoteName)
      (names.map fun name => [Lexeme.name name]) := by
    rw [List.forall₂_map_left_iff, List.forall₂_map_right_iff, List.forall₂_same]
    exact fun name _ => reads_quoteName name
  exact reads_intercalate setsOff_comma hnames

/-- The comparison of a column with a parameter. -/
def comparison (qualifier : List Lexeme) (column : String) (n : Nat) : List Lexeme :=
  qualifier ++ [Lexeme.name column, Lexeme.symbol '=', Lexeme.parameter n]

/-- A comparison is a name, a sign and a parameter, behind the qualifier. -/
theorem reads_comparison {qualifier : String} {lq : List Lexeme} (h : Ends qualifier lq)
    (column : String) (n : Nat) :
    Reads (qualifier ++ quoteName column ++ " = " ++ parameter n) (comparison lq column n) := by
  rw [String.append_assoc, String.append_assoc, comparison]
  exact h.append ((reads_quoteName column).behind (setsOff_equals.behind (reads_parameter n)))

/-- A predicate is read as comparisons whose parameters are counted from `first` on. -/
theorem reads_predicate {qualifier : String} {lq : List Lexeme} (h : Ends qualifier lq)
    (columns : List String) (first : Nat) : Reads (predicate qualifier columns first)
      ([.word "AND"].intercalate (columns.mapIdx fun i c => comparison lq c (first + i))) :=
  reads_intercalate setsOff_and
    (forall₂_mapIdx (fun i c => reads_comparison h c (first + i)) columns)

end CrudGen.Sql
