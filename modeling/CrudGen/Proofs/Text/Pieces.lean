import Mathlib.Data.List.TakeWhile
import CrudGen.Text.Basic

/-!
# Pieces of a text, literals and lists

A separator ends the piece before it and begins the one behind it, so that cutting undoes joining. A
literal ends at the first mark that no backslash stands before, so that reading undoes writing. What
is listed has separators between it, with some blanks before and behind them, none of which belong
to what is listed.

Main results:

* `splitAll_append` — the pieces of two texts with a separator between them.
* `flatten_splitAll` — the pieces of a text are what stands between the separators.
* `splitAll_intercalate`, `intercalate_splitAll` — pieces that are joined by a separator are cut
  there again, and the other way round.
* `mem_backslashed` — which characters a literal has.
* `readLiteral_escaped` — a literal is read as what was written, whatever follows.
* `separated_intercalate` — what is listed is found between the separators.
* `separated_between` — the same where one text stands between the others.
-/

namespace CrudGen.Text

-- ---------------------------------------------------------------------------
-- Characters
-- ---------------------------------------------------------------------------

/-- What all characters of a list are is decided along the list. There are finitely many characters,
but far too many to try them all. -/
instance (priority := high) decidableForallMem (p : Char → Prop) [DecidablePred p]
    (cs : List Char) : Decidable (∀ c ∈ cs, p c) :=
  List.decidableBAll p cs

/-- So is what one of them is. -/
instance (priority := high) decidableExistsMem (p : Char → Prop) [DecidablePred p]
    (cs : List Char) : Decidable (∃ c ∈ cs, p c) :=
  List.decidableBEx p cs

/-- What a character is, if there is one, is decided by that one. -/
instance (priority := high) decidableForallOption (p : Char → Prop) [DecidablePred p]
    (c? : Option Char) : Decidable (∀ c ∈ c?, p c) :=
  Option.decidableForallMem c?

-- ---------------------------------------------------------------------------
-- Pieces
-- ---------------------------------------------------------------------------

variable {isSeparator : Char → Bool}

section Marks

variable {α : Type} [BEq α] [LawfulBEq α] {a : α} {before : List α}

/-- Characters before the first `a` are not `a`. -/
theorem bne_of_not_mem (h : a ∉ before) : ∀ b ∈ before, (b != a) = true := by
  intro b hb
  rw [bne_iff_ne]
  rintro rfl
  exact h hb

/-- What stands before something is cut off there. -/
theorem dropWhile_ne_append (h : a ∉ before) (rest : List α) :
    (before ++ a :: rest).dropWhile (· != a) = a :: rest := by
  rw [List.dropWhile_append_of_pos (bne_of_not_mem h)]
  simp

/-- What stands before something is taken up to there. -/
theorem takeWhile_ne_append (h : a ∉ before) (rest : List α) :
    (before ++ a :: rest).takeWhile (· != a) = before := by
  rw [List.takeWhile_append_of_pos (bne_of_not_mem h)]
  simp

/-- Nothing is left without it. -/
theorem dropWhile_ne_of_not_mem (h : a ∉ before) : before.dropWhile (· != a) = [] :=
  List.dropWhile_eq_nil_iff.2 (bne_of_not_mem h)

/-- Everything is taken without it. -/
theorem takeWhile_ne_of_not_mem (h : a ∉ before) : before.takeWhile (· != a) = before :=
  List.takeWhile_eq_self_iff.2 (bne_of_not_mem h)

end Marks

/-- There is always a piece. -/
theorem splitAll_ne_nil (cs : List Char) : splitAll isSeparator cs ≠ [] := by
  cases cs with
  | nil => simp [splitAll]
  | cons c rest =>
    rw [splitAll]
    split
    · simp
    · split <;> simp

/-- A separator ends one piece and another one begins behind it. -/
theorem splitAll_append {c : Char} (hc : isSeparator c = true) (before after : List Char) :
    splitAll isSeparator (before ++ c :: after) =
      splitAll isSeparator before ++ splitAll isSeparator after := by
  induction before with
  | nil => simp [splitAll, hc]
  | cons d rest ih =>
    rw [List.cons_append, splitAll, splitAll, ih]
    split
    · rfl
    · cases hrest : splitAll isSeparator rest with
      | nil => exact absurd hrest (splitAll_ne_nil rest)
      | cons piece more => rfl

/-- A text without separators is one piece. -/
theorem splitAll_eq_singleton {cs : List Char} (h : ∀ c ∈ cs, isSeparator c = false) :
    splitAll isSeparator cs = [cs] := by
  induction cs with
  | nil => rfl
  | cons c rest ih =>
    rw [List.forall_mem_cons] at h
    simp [splitAll, h.1, ih h.2]

/-- The pieces of a text are what stands between the separators. -/
theorem flatten_splitAll (isSeparator : Char → Bool) (cs : List Char) :
    (splitAll isSeparator cs).flatten = cs.filter fun c => !isSeparator c := by
  induction cs with
  | nil => rfl
  | cons c rest ih =>
    rw [splitAll, List.filter_cons]
    cases hc : isSeparator c with
    | true => simpa using ih
    | false =>
      cases hrest : splitAll isSeparator rest with
      | nil => exact absurd hrest (splitAll_ne_nil rest)
      | cons piece more =>
        rw [hrest] at ih
        simpa using ih

/-- Texts that are joined by a separator are cut into the pieces of all of them. -/
theorem splitAll_joined (sep : Char) {texts : List (List Char)} (hne : texts ≠ []) :
    splitAll (fun c => c == sep) ([sep].intercalate texts) =
      texts.flatMap (splitAll fun c => c == sep) := by
  induction texts with
  | nil => exact absurd rfl hne
  | cons text rest ih =>
    cases rest with
    | nil => rw [List.intercalate_singleton, List.flatMap_singleton]
    | cons next more =>
      rw [List.intercalate_cons_cons, List.append_assoc, List.singleton_append,
        splitAll_append (by simp), ih (by simp)]
      rfl

/-- Pieces that are joined by a separator are cut there again. -/
theorem splitAll_intercalate {sep : Char} {pieces : List (List Char)} (hne : pieces ≠ [])
    (h : ∀ piece ∈ pieces, sep ∉ piece) :
    splitAll (fun c => c == sep) ([sep].intercalate pieces) = pieces := by
  have hpieces : ∀ piece ∈ pieces, splitAll (fun c => c == sep) piece = [piece] :=
    fun piece hpiece => splitAll_eq_singleton fun c hc => beq_eq_false_iff_ne.2 fun hsep =>
      h piece hpiece (hsep ▸ hc)
  rw [splitAll_joined sep hne, List.flatMap_def, List.map_congr_left hpieces, ← List.flatMap_def,
    List.flatMap_singleton']

/-- A text that is cut at a separator is joined by it again. -/
theorem intercalate_splitAll (sep : Char) (cs : List Char) :
    [sep].intercalate (splitAll (fun c => c == sep) cs) = cs := by
  induction cs with
  | nil => rfl
  | cons c rest ih =>
    rw [splitAll]
    -- a separator begins a piece, any other character is put in front of the first
    split
    · rename_i hsep
      cases hrest : splitAll (fun c => c == sep) rest with
      | nil => exact absurd hrest (splitAll_ne_nil rest)
      | cons piece more =>
        rw [List.intercalate_cons_cons, ← hrest, ih, eq_of_beq hsep]
        rfl
    · cases hrest : splitAll (fun c => c == sep) rest with
      | nil => exact absurd hrest (splitAll_ne_nil rest)
      | cons piece more =>
        rw [hrest] at ih
        cases more with
        | nil => rw [List.intercalate_singleton] at ih ⊢; rw [ih]
        | cons next more =>
          rw [List.intercalate_cons_cons] at ih ⊢
          exact congrArg (c :: ·) ih

/-- The last of several texts stands behind the others and a separator. -/
theorem intercalate_concat {α : Type} (separator : List α) {before : List (List α)}
    (h : before ≠ []) (last : List α) :
    separator.intercalate (before ++ [last]) =
      separator.intercalate before ++ separator ++ last := by
  induction before with
  | nil => exact absurd rfl h
  | cons first rest ih =>
    cases rest with
    | nil => simp
    | cons next more =>
      rw [List.cons_append, List.cons_append, List.intercalate_cons_cons, ← List.cons_append,
        ih (by simp), List.intercalate_cons_cons]
      simp only [List.append_assoc]

/-- A character of texts with separators between them is one of a text or of a separator. -/
theorem exists_of_mem_intercalate {α : Type} {separator : List α} {texts : List (List α)} {c : α}
    (h : c ∈ separator.intercalate texts) : c ∈ separator ∨ ∃ text ∈ texts, c ∈ text := by
  induction texts with
  | nil => simp at h
  | cons text rest ih =>
    cases rest with
    | nil => exact .inr ⟨text, List.mem_cons_self, by simpa using h⟩
    | cons next more =>
      rw [List.intercalate_cons_cons, List.mem_append, List.mem_append] at h
      rcases h with (htext | hseparator) | hmore
      · exact .inr ⟨text, List.mem_cons_self, htext⟩
      · exact .inl hseparator
      · exact (ih hmore).imp_right fun ⟨t, ht, hc⟩ => ⟨t, List.mem_cons_of_mem _ ht, hc⟩

-- ---------------------------------------------------------------------------
-- Literals
-- ---------------------------------------------------------------------------

/-- The characters of a literal behind its first mark, and what stands behind the literal. Behind a
backslash any character is one of the text. -/
def readLiteral (mark : Char) : Bool → List Char → List Char × List Char
  | _, [] => ([], [])
  | true, c :: rest => (readLiteral mark false rest).map (c :: ·) id
  | false, c :: rest =>
    if c = mark then ([], rest)
    else if c = '\\' then readLiteral mark true rest
    else (readLiteral mark false rest).map (c :: ·) id

/-- Escaping adds backslashes only. -/
theorem mem_escaped {special cs : List Char} {c : Char} (h : c ∈ escaped special cs) :
    c = '\\' ∨ c ∈ cs := by
  induction cs with
  | nil => exact .inr h
  | cons d rest ih =>
    rw [escaped] at h
    split at h
    · rcases List.mem_cons.1 h with rfl | h
      · exact .inl rfl
      · rcases List.mem_cons.1 h with rfl | h
        · exact .inr List.mem_cons_self
        · exact (ih h).imp_right (List.mem_cons_of_mem d)
    · rcases List.mem_cons.1 h with rfl | h
      · exact .inr List.mem_cons_self
      · exact (ih h).imp_right (List.mem_cons_of_mem d)

/-- A literal has no characters but those of its text, backslashes and its marks. -/
theorem mem_backslashed {mark c : Char} {s : String} (h : c ∈ (backslashed mark s).toList) :
    c = mark ∨ c = '\\' ∨ c ∈ s.toList := by
  rw [backslashed, String.toList_ofList, List.mem_append, List.mem_cons, List.mem_singleton] at h
  rcases h with (rfl | h) | rfl
  · exact .inl rfl
  · exact .inr (mem_escaped h)
  · exact .inl rfl

/-- Reading undoes writing, whatever follows. -/
theorem readLiteral_escaped {mark : Char} (hmark : mark ≠ '\\') (cs rest : List Char) :
    readLiteral mark false (escaped ['\\', mark] cs ++ mark :: rest) = (cs, rest) := by
  induction cs with
  | nil =>
    rw [escaped, List.nil_append, readLiteral, if_pos rfl]
  | cons c more ih =>
    rw [escaped]
    split
    · rw [List.cons_append, List.cons_append, readLiteral, if_neg hmark.symm, if_pos rfl,
        readLiteral, ih]
      rfl
    · rename_i hplain
      simp only [List.contains_cons, Bool.or_eq_true, beq_iff_eq, List.contains_nil,
        Bool.false_eq_true, or_false, not_or] at hplain
      rw [List.cons_append, readLiteral, if_neg hplain.2, if_neg hplain.1, ih]
      rfl

/-- A text between double quotes is read from its literal, whatever follows. -/
theorem readLiteral_quote (s : String) (rest : List Char) :
    ∃ more, (quote s).toList ++ rest = '"' :: more ∧
      readLiteral '"' false more = (s.toList, rest) := by
  refine ⟨escaped ['\\', '"'] s.toList ++ '"' :: rest, ?_, readLiteral_escaped (by decide) _ _⟩
  rw [quote, backslashed, String.toList_ofList, List.cons_append, List.cons_append,
    List.append_assoc, List.singleton_append]

-- ---------------------------------------------------------------------------
-- Lists
-- ---------------------------------------------------------------------------

/-- Some characters without the blanks around them. -/
def unblanked (cs : List Char) : List Char :=
  ((cs.dropWhile (· == ' ')).reverse.dropWhile (· == ' ')).reverse

/-- What stands between separators, without the blanks around it. -/
def separated (separator : Char) (cs : List Char) : List (List Char) :=
  (splitAll (· == separator) cs).map unblanked

/-- A separator with some blanks before it and some behind it. -/
def spacedOut (before : Nat) (separator : Char) (behind : Nat) : List Char :=
  List.replicate before ' ' ++ separator :: List.replicate behind ' '

/-- Whether neither a separator nor a blank stands in some characters. -/
def Bare (separator : Char) (cs : List Char) : Prop :=
  separator ∉ cs ∧ ' ' ∉ cs

variable {cs : List Char} {separator : Char}

/-- Blanks in front are dropped with those that follow. -/
theorem dropWhile_blanks (n : Nat) (cs : List Char) :
    (List.replicate n ' ' ++ cs).dropWhile (· == ' ') = cs.dropWhile (· == ' ') :=
  List.dropWhile_append_of_pos fun c hc => by simp [List.eq_of_mem_replicate hc]

/-- A text without blanks is left alone. -/
theorem dropWhile_of_not_mem (h : ' ' ∉ cs) : cs.dropWhile (· == ' ') = cs := by
  cases cs with
  | nil => rfl
  | cons c rest =>
    rw [List.mem_cons, not_or] at h
    exact List.dropWhile_cons_of_neg (by simpa using Ne.symm h.1)

/-- Blanks around a text without blanks are dropped. -/
theorem unblanked_blanks (h : ' ' ∉ cs) (n m : Nat) :
    unblanked (List.replicate n ' ' ++ (cs ++ List.replicate m ' ')) = cs := by
  rw [unblanked, dropWhile_blanks]
  cases cs with
  | nil =>
    have hnothing := dropWhile_blanks m []
    rw [List.append_nil] at hnothing
    rw [List.nil_append, hnothing]
    rfl
  | cons c rest =>
    have hstart : c ≠ ' ' := fun hc => h (hc ▸ List.mem_cons_self)
    rw [List.cons_append, List.dropWhile_cons_of_neg (by simpa using hstart), ← List.cons_append,
      List.reverse_append, List.reverse_replicate, dropWhile_blanks,
      dropWhile_of_not_mem (by rwa [List.mem_reverse]), List.reverse_reverse]

/-- What is listed is found between the separators. -/
theorem separated_intercalate {before behind : Nat} {listed : List (List Char)}
    (hseparator : separator ≠ ' ') (hsome : listed ≠ []) (h : ∀ cs ∈ listed, Bare separator cs) :
    separated separator ((spacedOut before separator behind).intercalate listed) = listed := by
  -- blanks that stand behind a separator stand before what is listed next
  suffices hblanks : ∀ n, separated separator (List.replicate n ' ' ++
      (spacedOut before separator behind).intercalate listed) = listed by
    simpa using hblanks 0
  have hapart (n : Nat) {cs : List Char} (hcs : separator ∉ cs) :
      splitAll (· == separator) (List.replicate n ' ' ++ cs) = [List.replicate n ' ' ++ cs] := by
    refine splitAll_eq_singleton fun c hc => ?_
    rw [beq_eq_false_iff_ne]
    rintro rfl
    rcases List.mem_append.1 hc with hblank | hc
    · exact hseparator (List.eq_of_mem_replicate hblank)
    · exact hcs hc
  induction listed with
  | nil => exact absurd rfl hsome
  | cons cs rest ih =>
    rw [List.forall_mem_cons] at h
    intro n
    cases rest with
    | nil =>
      have hcs := unblanked_blanks h.1.2 n 0
      rw [List.replicate_zero, List.append_nil] at hcs
      rw [List.intercalate_singleton, separated, hapart n h.1.1, List.map_singleton, hcs]
    | cons next more =>
      have hpadded : separator ∉ cs ++ List.replicate before ' ' := by
        rw [List.mem_append, not_or]
        exact ⟨h.1.1, fun hmem => hseparator (List.eq_of_mem_replicate hmem)⟩
      have hline : List.replicate n ' ' ++
          (spacedOut before separator behind).intercalate (cs :: next :: more) =
            (List.replicate n ' ' ++ (cs ++ List.replicate before ' ')) ++ separator ::
              (List.replicate behind ' ' ++
                (spacedOut before separator behind).intercalate (next :: more)) := by
        simp [List.intercalate_cons_cons, spacedOut]
      have hnext := ih (by simp) h.2 behind
      rw [separated] at hnext
      rw [separated, hline, splitAll_append (by simp), List.map_append, hnext,
        hapart n hpadded, List.map_singleton, unblanked_blanks h.1.2]
      rfl

/-- What stands between others with separators is listed as one more. -/
theorem intercalate_between {α : Type} (separator middle : List α) (listed : List (List α)) :
    (separator ++ (middle ++ separator)).intercalate listed =
      separator.intercalate ([middle].intercalate (listed.map fun cs => [cs])) := by
  induction listed with
  | nil => rfl
  | cons cs rest ih =>
    cases rest with
    | nil => simp
    | cons next more =>
      have hmore : [middle].intercalate ((next :: more).map fun cs => [cs]) ≠ [] := by
        cases more <;> simp [List.intercalate_cons_cons]
      obtain ⟨first, others, hothers⟩ := List.exists_cons_of_ne_nil hmore
      have hlist : [middle].intercalate ((cs :: next :: more).map fun cs => [cs]) =
          cs :: middle :: [middle].intercalate ((next :: more).map fun cs => [cs]) := by
        simp [List.intercalate_cons_cons]
      rw [List.intercalate_cons_cons, ih, hlist, hothers, List.intercalate_cons_cons,
        List.intercalate_cons_cons]
      simp only [List.append_assoc]

/-- Separators are mapped like the elements between them. -/
theorem map_intercalate {α β : Type} (f : α → β) (middle : α) (listed : List α) :
    ([middle].intercalate (listed.map fun a => [a])).map f =
      [f middle].intercalate (listed.map fun a => [f a]) := by
  induction listed with
  | nil => rfl
  | cons a rest ih =>
    cases rest with
    | nil => rfl
    | cons next more =>
      rw [List.map_cons, List.map_cons, List.intercalate_cons_cons, List.map_append, ← List.map_cons
        (f := fun a => [a]), ih]
      rfl

/-- What stands between parentheses, listed with one text between others. -/
theorem separated_between {before behind : Nat} {middle : List Char} {listed : List (List Char)}
    (hseparator : separator ≠ ' ') (hsome : listed ≠ []) (hmiddle : Bare separator middle)
    (h : ∀ cs ∈ listed, Bare separator cs) :
    separated separator ((spacedOut before separator behind ++
      (middle ++ spacedOut before separator behind)).intercalate listed) =
        [middle].intercalate (listed.map fun cs => [cs]) := by
  have hnonempty : [middle].intercalate (listed.map fun cs => [cs]) ≠ [] := by
    obtain ⟨cs, rest, rfl⟩ := List.exists_cons_of_ne_nil hsome
    cases rest <;> simp [List.intercalate_cons_cons]
  rw [intercalate_between, separated_intercalate hseparator hnonempty]
  intro cs hcs
  rcases exists_of_mem_intercalate hcs with hmem | ⟨single, hsingle, hmem⟩
  · rwa [List.mem_singleton.1 hmem]
  · obtain ⟨cs', hcs', rfl⟩ := List.mem_map.1 hsingle
    rw [List.mem_singleton.1 hmem]
    exact h cs' hcs'

end CrudGen.Text
