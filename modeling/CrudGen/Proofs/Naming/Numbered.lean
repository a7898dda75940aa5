import CrudGen.Proofs.Naming.Words
import CrudGen.Target.Profile

/-!
# Naming — names with a number

Where a name is taken, the name with a number behind it is tried. That search ends because different
numbers give different names, in every role and every casing. The number is a word of its own, which
stays as it is while the words before it are inflected and put together in another way. Only where
the name has no words at all does the number stand alone, and may get an `s` of the plural.

`Numbered` lists the forms that such a name takes on its way from the table to the spelled name.

Main results:

* `Numbered.toSnake`, `Numbered.singularized`, `Numbered.pluralized` — the forms lead to each other.
* `Numbered.spelled` — in every casing the number stands between texts that do not depend on it.
* `Numbered.mapName_injective` — different numbers give different names in every role.
-/

namespace CrudGen.Naming

open Text

/-- Names that differ in a number. -/
inductive Numbered : (Nat → String) → Prop
  /-- A name with a number behind it. -/
  | behind (stem : String) : Numbered fun n => stem ++ "_" ++ toString n
  /-- A number without a name. -/
  | alone : Numbered fun n => toString n
  /-- A number in the plural. -/
  | several : Numbered fun n => toString n ++ "s"

variable {g : Nat → String}

-- ---------------------------------------------------------------------------
-- Words
-- ---------------------------------------------------------------------------

/-- A number is written with its digits. -/
theorem toString_eq_digits (n : Nat) : toString n = String.ofList (digits n) :=
  String.ofList_toList.symm

/-- Digits are no big letters. -/
theorem small_digits (n : Nat) : ∀ c ∈ digits n, Small c :=
  fun _ hc => small_of_isDigit (isDigit_of_mem_digits hc)

theorem small_digits_s (n : Nat) : ∀ c ∈ digits n ++ ['s'], Small c :=
  List.forall_mem_append.2 ⟨small_digits n, List.forall_mem_singleton.2 small_s⟩

/-- A number is one word. -/
theorem words_alone (n : Nat) : words (toString n) = [digits n] := by
  rw [toString_eq_digits]
  exact words_of_small (digits_ne_nil n) (small_digits n)

/-- A number with an `s` is its digits and the letter. -/
theorem toString_s (n : Nat) : toString n ++ "s" = String.ofList (digits n ++ ['s']) := by
  rw [String.ofList_append, ← toString_eq_digits]

theorem words_several (n : Nat) : words (toString n ++ "s") = [digits n ++ ['s']] := by
  rw [toString_s]
  exact words_of_small (by simp) (small_digits_s n)

/-- A number behind an underscore is a word of its own. -/
theorem words_behind (stem : String) (n : Nat) :
    words (stem ++ "_" ++ toString n) = words stem ++ [digits n] := by
  have htext : stem ++ "_" ++ toString n = String.ofList (stem.toList ++ '_' :: digits n) := by
    rw [String.append_assoc, String.ofList_append, String.ofList_toList, String.ofList_cons,
      ← toString_eq_digits]
    rfl
  rw [htext, words_append (by decide), String.ofList_toList, ← toString_eq_digits, words_alone]

-- ---------------------------------------------------------------------------
-- Casings
-- ---------------------------------------------------------------------------

/-- The characters that words make up in a casing. -/
def joined : Casing → List (List Char) → List Char
  | .snake, ws => ['_'].intercalate (ws.map lowerWord)
  | .kebab, ws => ['-'].intercalate (ws.map lowerWord)
  | .screamingSnake, ws => ['_'].intercalate (ws.map upperWord)
  | .pascal, ws | .preserve, ws => ws.flatMap capitalWord
  | .camel, [] => []
  | .camel, first :: rest => lowerWord first ++ rest.flatMap capitalWord

/-- A casing that changes a name looks at its words only. -/
theorem toList_apply {casing : Casing} (h : casing ≠ .preserve) (name : String) :
    (casing.apply name).toList = joined casing (words name) := by
  cases casing with
  | preserve => exact absurd rfl h
  | snake => exact String.toList_ofList
  | kebab => exact String.toList_ofList
  | screamingSnake => exact String.toList_ofList
  | pascal => exact String.toList_ofList
  | camel =>
    rw [Casing.apply, Casing.toCamel]
    cases words name with
    | nil => rfl
    | cons first rest => exact String.toList_ofList

/-- The last of several texts stands behind a text that does not depend on it. -/
theorem exists_intercalate_concat (separator : List Char) (before : List (List Char)) :
    ∃ head, ∀ last, separator.intercalate (before ++ [last]) = head ++ last := by
  by_cases h : before = []
  · exact ⟨[], fun last => by simp [h]⟩
  · exact ⟨_, intercalate_concat separator h⟩

/-- A last word that has no letters stands behind a text that does not depend on it. -/
theorem joined_concat (casing : Casing) (ws : List (List Char)) :
    ∃ head, ∀ last, lowerWord last = last → upperWord last = last → capitalWord last = last →
      joined casing (ws ++ [last]) = head ++ last := by
  have hcapital (ws : List (List Char)) (last : List Char) (h : capitalWord last = last) :
      (ws ++ [last]).flatMap capitalWord = ws.flatMap capitalWord ++ last := by
    rw [List.flatMap_append, List.flatMap_singleton, h]
  -- casings differ in what stands between the words and in how each word is written
  cases casing with
  | snake =>
    obtain ⟨head, hhead⟩ := exists_intercalate_concat ['_'] (ws.map lowerWord)
    refine ⟨head, fun last hlower _ _ => ?_⟩
    rw [joined, List.map_append, List.map_singleton, hlower, hhead]
  | kebab =>
    obtain ⟨head, hhead⟩ := exists_intercalate_concat ['-'] (ws.map lowerWord)
    refine ⟨head, fun last hlower _ _ => ?_⟩
    rw [joined, List.map_append, List.map_singleton, hlower, hhead]
  | screamingSnake =>
    obtain ⟨head, hhead⟩ := exists_intercalate_concat ['_'] (ws.map upperWord)
    refine ⟨head, fun last _ hupper _ => ?_⟩
    rw [joined, List.map_append, List.map_singleton, hupper, hhead]
  | pascal => exact ⟨_, fun last _ _ hlast => hcapital ws last hlast⟩
  | preserve => exact ⟨_, fun last _ _ hlast => hcapital ws last hlast⟩
  | camel =>
    -- the first word of all is written small, so it matters whether there is one before the number
    cases ws with
    | nil =>
      refine ⟨[], fun last hlower _ _ => ?_⟩
      rw [List.nil_append, joined, hlower, List.flatMap_nil, List.append_nil, List.nil_append]
    | cons first rest =>
      refine ⟨lowerWord first ++ rest.flatMap capitalWord, fun last _ _ hlast => ?_⟩
      rw [List.cons_append, joined, hcapital rest last hlast, List.append_assoc]

-- ---------------------------------------------------------------------------
-- Spelled numbers
-- ---------------------------------------------------------------------------

/-- Digits have no upper case. -/
theorem upperWord_digits (n : Nat) : upperWord (digits n) = digits n := by
  have h : ∀ c ∈ digits n, upperOf c = [c] :=
    fun c hc => upperOf_of_isDigit (isDigit_of_mem_digits hc)
  generalize digits n = cs at h
  induction cs with
  | nil => rfl
  | cons c rest ih =>
    rw [List.forall_mem_cons] at h
    rw [upperWord, List.flatMap_cons, h.1, ← upperWord, ih h.2, List.singleton_append]

/-- A word that starts with a digit has no capital, and is spelled as in lower case. -/
theorem capitalWord_digits_append (n : Nat) (tail : List Char) :
    capitalWord (digits n ++ tail) = lowerWord (digits n ++ tail) := by
  cases hdigits : digits n with
  | nil => exact absurd hdigits (digits_ne_nil n)
  | cons c rest =>
    have hc : c.isDigit = true := isDigit_of_mem_digits (hdigits ▸ List.mem_cons_self)
    have hsmall := small_of_isDigit hc
    rw [List.cons_append, capitalWord, upperOf_of_isDigit hc, lowerWord, hsmall.lower]
    rintro rfl -
    exact hsmall.apart.2 rfl

/-- Digits are not capitalised. -/
theorem capitalWord_digits (n : Nat) : capitalWord (digits n) = digits n := by
  have h := capitalWord_digits_append n []
  rwa [List.append_nil, lowerWord_of_small (small_digits n)] at h

/-- A number as the last word stands at the end in every casing. -/
theorem joined_digits (casing : Casing) (ws : List (List Char)) :
    ∃ head, ∀ n, joined casing (ws ++ [digits n]) = head ++ digits n := by
  obtain ⟨head, hhead⟩ := joined_concat casing ws
  exact ⟨head, fun n => hhead (digits n) (lowerWord_of_small (small_digits n))
    (upperWord_digits n) (capitalWord_digits n)⟩

/-- A number in the plural keeps its digits in every casing. -/
theorem joined_digits_s (casing : Casing) :
    ∃ tail, ∀ n, joined casing [digits n ++ ['s']] = digits n ++ tail := by
  have hlower (n : Nat) := lowerWord_of_small (small_digits_s n)
  have hcapital (n : Nat) : capitalWord (digits n ++ ['s']) = digits n ++ ['s'] := by
    rw [capitalWord_digits_append, hlower]
  cases casing with
  | screamingSnake =>
    refine ⟨['S'], fun n => ?_⟩
    have hs : ['s'].flatMap upperOf = ['S'] := by decide
    rw [joined, List.map_singleton, List.intercalate_singleton, upperWord, List.flatMap_append,
      ← upperWord, upperWord_digits, hs]
  | snake => exact ⟨['s'], fun n => by simp [joined, hlower]⟩
  | kebab => exact ⟨['s'], fun n => by simp [joined, hlower]⟩
  | pascal => exact ⟨['s'], fun n => by simp [joined, hcapital]⟩
  | camel => exact ⟨['s'], fun n => by simp [joined, hlower]⟩
  | preserve => exact ⟨['s'], fun n => by simp [joined, hcapital]⟩

/-- In every casing the number stands between texts that do not depend on it. -/
theorem Numbered.spelled (hg : Numbered g) (casing : Casing) :
    ∃ head tail, ∀ n, (casing.apply (g n)).toList = head ++ digits n ++ tail := by
  -- `preserve` leaves the name as it is, the others write its words
  by_cases hcasing : casing = .preserve
  · subst hcasing
    cases hg with
    | behind stem => exact ⟨stem.toList ++ ['_'], [], fun n => by simp [Casing.apply, digits]⟩
    | alone => exact ⟨[], [], fun n => by simp [Casing.apply, digits]⟩
    | several => exact ⟨[], ['s'], fun n => by simp [Casing.apply, digits]⟩
  · cases hg with
    | behind stem =>
      obtain ⟨head, hhead⟩ := joined_digits casing (words stem)
      refine ⟨head, [], fun n => ?_⟩
      rw [toList_apply hcasing, words_behind, hhead, List.append_nil]
    | alone =>
      obtain ⟨head, hhead⟩ := joined_digits casing []
      refine ⟨head, [], fun n => ?_⟩
      rw [toList_apply hcasing, words_alone, ← List.nil_append [digits n], hhead, List.append_nil]
    | several =>
      obtain ⟨tail, htail⟩ := joined_digits_s casing
      refine ⟨[], tail, fun n => ?_⟩
      rw [toList_apply hcasing, words_several, htail, List.nil_append]

/-- Numbered names differ in every casing. -/
theorem Numbered.apply_injective (hg : Numbered g) (casing : Casing) :
    Function.Injective fun n => casing.apply (g n) := by
  intro m n h
  obtain ⟨head, tail, hspelled⟩ := hg.spelled casing
  have hlists := congrArg String.toList h
  rw [hspelled, hspelled, List.append_left_inj, List.append_right_inj] at hlists
  exact digits_injective hlists

/-- Snake case keeps the form, or leaves the number alone. -/
theorem Numbered.toSnake (hg : Numbered g) : Numbered fun n => Casing.toSnake (g n) := by
  have hsnake (name : String) : Casing.toSnake name = String.ofList (joined .snake (words name)) :=
    rfl
  cases hg with
  | behind stem =>
    -- a stem without words leaves nothing before the number
    cases hwords : words stem with
    | nil =>
      have heq (n : Nat) : Casing.toSnake (stem ++ "_" ++ toString n) = toString n := by
        rw [hsnake, words_behind, hwords, List.nil_append, joined, List.map_singleton,
          lowerWord_of_small (small_digits n), List.intercalate_singleton, ← toString_eq_digits]
      simpa only [heq] using Numbered.alone
    | cons first rest =>
      have hne : (words stem).map lowerWord ≠ [] := by simp [hwords]
      have heq (n : Nat) :
          Casing.toSnake (stem ++ "_" ++ toString n) =
            Casing.toSnake stem ++ "_" ++ toString n := by
        have hdigits : toString n = String.ofList (digits n) := toString_eq_digits n
        rw [hsnake, words_behind, joined, List.map_append, List.map_singleton,
          lowerWord_of_small (small_digits n), intercalate_concat _ hne, String.ofList_append,
          String.ofList_append, ← hdigits]
        rfl
      simpa only [heq] using Numbered.behind (Casing.toSnake stem)
  | alone =>
    have heq (n : Nat) : Casing.toSnake (toString n) = toString n := by
      rw [hsnake, words_alone, joined, List.map_singleton, lowerWord_of_small (small_digits n),
        List.intercalate_singleton, ← toString_eq_digits]
    simpa only [heq] using Numbered.alone
  | several =>
    have heq (n : Nat) : Casing.toSnake (toString n ++ "s") = toString n ++ "s" := by
      rw [hsnake, words_several, joined, List.map_singleton, lowerWord_of_small (small_digits_s n),
        List.intercalate_singleton, ← toString_s]
    simpa only [heq] using Numbered.several

-- ---------------------------------------------------------------------------
-- Inflection
-- ---------------------------------------------------------------------------

/-- A number is read as one. -/
theorem isNumber_toString (n : Nat) : isNumber (toString n) = true := by
  have hall : (toString n).all Char.isDigit = true := by
    rw [String.all_bool_eq, List.all_eq_true]
    exact fun c hc => isDigit_of_mem_digits hc
  have hne : (toString n).isEmpty = false := by
    rw [toString_eq_digits]
    simpa using digits_ne_nil n
  rw [isNumber, hne, hall]
  rfl

/-- Inflecting the last piece leaves no fewer pieces. -/
theorem inflectLast_ne_nil {f : String → String} {pieces : List String} (h : pieces ≠ []) :
    inflectLast f pieces ≠ [] := by
  match pieces, h with
  | [single], _ => simp [inflectLast]
  | last :: next :: before, _ =>
    rw [inflectLast]
    · split <;> simp
    · simp

/-- A number behind a name is not inflected. -/
theorem onLastWord_behind (f : String → String) (stem : String) (n : Nat) :
    onLastWord f (stem ++ "_" ++ toString n) = onLastWord f stem ++ "_" ++ toString n := by
  let pieces := (Text.splitAll (fun c => c == '_') stem.toList).map String.ofList
  have hpieces : (Text.splitAll (fun c => c == '_') (stem ++ "_" ++ toString n).toList).map
      String.ofList = pieces ++ [toString n] := by
    -- the number is the last piece, as it has no sign of its own
    have hlist : (stem ++ "_" ++ toString n).toList = stem.toList ++ '_' :: digits n := by
      simp [digits]
    have hnone : ∀ c ∈ digits n, (c == '_') = false := by
      intro c hc
      have hdigit := isDigit_of_mem_digits hc
      rw [beq_eq_false_iff_ne]
      rintro rfl
      exact absurd hdigit (by decide)
    rw [hlist, Text.splitAll_append (by decide), Text.splitAll_eq_singleton hnone, List.map_append,
      List.map_singleton, ← toString_eq_digits]
  have hne : pieces.reverse ≠ [] := by simp [pieces, Text.splitAll_ne_nil]
  have hinflect : inflectLast f (toString n :: pieces.reverse) =
      toString n :: inflectLast f pieces.reverse := by
    rw [inflectLast, if_pos (isNumber_toString n)]
    exact hne
  rw [onLastWord, hpieces, List.reverse_append, List.reverse_singleton, List.singleton_append,
    hinflect, List.reverse_cons,
    String.intercalate_append_of_ne_nil (by simpa using inflectLast_ne_nil hne) (by simp),
    String.intercalate_singleton]
  rfl

/-- A name of one piece is inflected as a whole. -/
theorem onLastWord_single (f : String → String) {cs : List Char} (h : '_' ∉ cs) :
    onLastWord f (String.ofList cs) = f (String.ofList cs) := by
  have hpieces : Text.splitAll (fun c => c == '_') cs = [cs] :=
    Text.splitAll_eq_singleton fun c hc => by
      simp only [beq_eq_false_iff_ne]
      rintro rfl
      exact h hc
  simp [onLastWord, hpieces, inflectLast]

/-- What has no digits ends a text behind digits exactly if it ends the text. -/
theorem suffix_digits_append {ending tail : List Char} (h : ∀ c ∈ ending, c.isDigit = false)
    (n : Nat) : ending <:+ digits n ++ tail ↔ ending <:+ tail := by
  refine ⟨fun hsuffix => ?_, fun hsuffix => hsuffix.trans (List.suffix_append _ _)⟩
  rcases List.suffix_or_suffix_of_suffix hsuffix (List.suffix_append (digits n) tail) with h' | h'
  · exact h'
  · -- what stands before the tail would be digits
    obtain ⟨more, rfl⟩ := h'
    obtain ⟨start, hstart⟩ := hsuffix
    rw [← List.append_assoc, List.append_left_inj] at hstart
    have hnil : more = [] := by
      refine List.eq_nil_iff_forall_not_mem.2 fun c hc => ?_
      have hdigit : c ∈ digits n := hstart ▸ List.mem_append_right start hc
      have hnone := h c (List.mem_append_left tail hc)
      rw [isDigit_of_mem_digits hdigit] at hnone
      cases hnone
    subst hnil
    exact List.suffix_refl tail

/-- Whether a text has no digit in it. -/
def digitless (s : String) : Bool :=
  s.toList.all fun c => !c.isDigit

/-- No character of a text without digits is one. -/
theorem isDigit_of_digitless {s : String} (h : digitless s = true) {c : Char}
    (hc : c ∈ s.toList) : c.isDigit = false := by
  simpa using List.all_eq_true.1 h c hc

/-- No word of a list without digits is a text with a digit in it. -/
theorem not_mem_of_digits {words : List String} (h : ∀ w ∈ words, digitless w = true) (n : Nat)
    (tail : List Char) : String.ofList (digits n ++ tail) ∉ words := by
  intro hmem
  obtain ⟨c, hc⟩ := List.exists_mem_of_ne_nil _ (digits_ne_nil n)
  have hnone := isDigit_of_digitless (h _ hmem) (c := c) (by simp [hc])
  rw [isDigit_of_mem_digits hc] at hnone
  cases hnone

/-- Digits in front do not change how a text ends. -/
theorem endsInOneOf_digits {endings : List String} (h : ∀ e ∈ endings, digitless e = true) (n : Nat)
    (tail : List Char) :
    endsInOneOf (String.ofList (digits n ++ tail)) endings =
      endsInOneOf (String.ofList tail) endings := by
  rw [Bool.eq_iff_iff]
  simp only [endsInOneOf, List.any_eq_true, List.isSuffixOf_iff_suffix, String.toList_ofList]
  constructor
  · rintro ⟨e, he, hsuffix⟩
    exact ⟨e, he, (suffix_digits_append (fun _ => isDigit_of_digitless (h e he)) n).1 hsuffix⟩
  · rintro ⟨e, he, hsuffix⟩
    exact ⟨e, he, (suffix_digits_append (fun _ => isDigit_of_digitless (h e he)) n).2 hsuffix⟩

/-- No irregular plural begins with digits. -/
theorem irregular_find?_digits (n : Nat) (tail : List Char) :
    irregular.find? (fun p => p.2 == String.ofList (digits n ++ tail)) = none := by
  have hmem : String.ofList (digits n ++ tail) ∉ irregular.map (·.2) :=
    not_mem_of_digits (by decide) n tail
  refine List.find?_eq_none.2 fun p hp hsame => hmem ?_
  rw [← beq_iff_eq.1 hsame]
  exact List.mem_map_of_mem hp

/-- Of a number nothing is taken off but an `s`. -/
theorem singularize_digits (n : Nat) {tail : List Char} (htail : tail = [] ∨ tail = ['s']) :
    singularize (String.ofList (digits n ++ tail)) = toString n := by
  have hempty : (String.ofList (digits n ++ tail)).isEmpty = false := by
    simp [digits_ne_nil n]
  have huncountable : uncountable.contains (String.ofList (digits n ++ tail)) = false := by
    simpa using not_mem_of_digits (by decide) n tail
  rw [singularize, hempty, huncountable, irregular_find?_digits]
  simp only [Bool.false_or, Bool.false_eq_true, if_false]
  rw [endsInOneOf_digits (by decide), endsInOneOf_digits (by decide),
    endsInOneOf_digits (by decide), endsInOneOf_digits (by decide)]
  -- what is left is a number, or one with an `s` that is neither kept nor part of an ending
  rcases htail with rfl | rfl
  · rw [List.append_nil, ← toString_eq_digits]
    rfl
  · have hne : (String.ofList (digits n ++ ['s']) != "s") = true := by
      rw [bne_iff_ne]
      intro heq
      have hlist := congrArg String.toList heq
      simp [digits_ne_nil n] at hlist
    have hends : endsInOneOf (String.ofList ['s']) ["s"] = true := by decide
    have hdrop : dropLast 1 (String.ofList (digits n ++ ['s'])) = toString n := by
      have hlength : (String.ofList (digits n ++ ['s'])).length - 1 = (digits n).length := by
        rw [String.length_ofList, List.length_append, List.length_singleton, Nat.add_sub_cancel]
      rw [toString_eq_digits, dropLast, hlength, String.toList_ofList, List.take_left]
    have hnone : endsInOneOf (String.ofList ['s']) ["ies"] = false ∧
        endsInOneOf (String.ofList ['s']) ["sses", "xes", "zes", "shes", "ches"] = false ∧
        endsInOneOf (String.ofList ['s']) ["ss", "us", "is"] = false := by decide
    obtain ⟨hies, hes, hkept⟩ := hnone
    rw [hies, hes, hkept, hends, hne]
    exact hdrop

/-- A number gets an `s`, unless it has one. -/
theorem pluralize_digits (n : Nat) {tail : List Char} (htail : tail = [] ∨ tail = ['s']) :
    pluralize (String.ofList (digits n ++ tail)) = toString n ++ "s" := by
  have hempty : (String.ofList (digits n ++ tail)).isEmpty = false := by
    simp [digits_ne_nil n]
  have huncountable : uncountable.contains (String.ofList (digits n ++ tail)) = false := by
    simpa using not_mem_of_digits (by decide) n tail
  have hlookup : irregular.lookup (String.ofList (digits n ++ tail)) = none := by
    have hmem : String.ofList (digits n ++ tail) ∉ irregular.map (·.1) :=
      not_mem_of_digits (by decide) n tail
    refine List.lookup_eq_none_iff.2 fun p hp => bne_iff_ne.2 fun hsame => hmem ?_
    exact hsame ▸ List.mem_map_of_mem hp
  have hany : irregular.any (fun p => p.2 == String.ofList (digits n ++ tail)) = false := by
    have hfind := irregular_find?_digits n tail
    rwa [List.find?_eq_none, ← List.any_eq_false] at hfind
  have hlast : ∀ c rest, (String.ofList (digits n ++ tail)).toList.reverse ≠ 'y' :: c :: rest := by
    intro c rest heq
    have hmem : 'y' ∈ digits n ++ tail := by
      rw [← List.mem_reverse, ← String.toList_ofList (l := digits n ++ tail), heq]
      exact List.mem_cons_self
    rcases List.mem_append.1 hmem with hy | hy
    · exact absurd (isDigit_of_mem_digits hy) (by decide)
    · rcases htail with rfl | rfl <;> simp at hy
  rw [pluralize, hempty, huncountable, hlookup]
  -- the last character is no `y`, so the first case of the plural does not apply
  simp only [Bool.false_or, Bool.false_eq_true, if_false, hany]
  rw [endsInOneOf_digits (by decide), endsInOneOf_digits (by decide)]
  rcases htail with rfl | rfl
  · rw [List.append_nil, ← toString_eq_digits]
    rfl
  · rw [toString_s]
    rfl

-- ---------------------------------------------------------------------------
-- Names in a role
-- ---------------------------------------------------------------------------

/-- No underscore stands in a number, with or without an ending. -/
theorem underscore_not_mem_digits (n : Nat) {tail : List Char} (htail : '_' ∉ tail) :
    '_' ∉ digits n ++ tail := by
  rw [List.mem_append]
  rintro (hmem | hmem)
  · exact absurd (isDigit_of_mem_digits hmem) (by decide)
  · exact htail hmem

/-- The singular keeps the form, or takes the `s` off a number. -/
theorem Numbered.singularized (hg : Numbered g) :
    Numbered fun n => onLastWord singularize (g n) := by
  cases hg with
  | behind stem =>
    simpa only [onLastWord_behind] using Numbered.behind (onLastWord singularize stem)
  | alone =>
    have heq (n : Nat) : onLastWord singularize (toString n) = toString n := by
      have hsingle := onLastWord_single singularize (underscore_not_mem_digits n List.not_mem_nil)
      rwa [singularize_digits n (.inl rfl), List.append_nil, ← toString_eq_digits] at hsingle
    simpa only [heq] using Numbered.alone
  | several =>
    have heq (n : Nat) : onLastWord singularize (toString n ++ "s") = toString n := by
      rw [toString_s, onLastWord_single singularize (underscore_not_mem_digits n (by decide)),
        singularize_digits n (.inr rfl)]
    simpa only [heq] using Numbered.alone

/-- The plural keeps the form, or gives a number an `s`. -/
theorem Numbered.pluralized (hg : Numbered g) :
    Numbered fun n => onLastWord pluralize (g n) := by
  cases hg with
  | behind stem =>
    simpa only [onLastWord_behind] using Numbered.behind (onLastWord pluralize stem)
  | alone =>
    have heq (n : Nat) : onLastWord pluralize (toString n) = toString n ++ "s" := by
      have hsingle := onLastWord_single pluralize (underscore_not_mem_digits n List.not_mem_nil)
      rwa [pluralize_digits n (.inl rfl), List.append_nil, ← toString_eq_digits] at hsingle
    simpa only [heq] using Numbered.several
  | several =>
    have heq (n : Nat) : onLastWord pluralize (toString n ++ "s") = toString n ++ "s" := by
      have hapart : '_' ∉ digits n ++ ['s'] := underscore_not_mem_digits n (by decide)
      have hsingle := onLastWord_single pluralize hapart
      rwa [pluralize_digits n (.inr rfl), ← toString_s] at hsingle
    simpa only [heq] using Numbered.several

/-- Numbers are kept in the singular. -/
theorem Numbered.singularSnake (hg : Numbered g) : Numbered fun n => singularSnake (g n) :=
  hg.toSnake.singularized

/-- Numbers are kept in the plural. -/
theorem Numbered.pluralSnake (hg : Numbered g) : Numbered fun n => pluralSnake (g n) :=
  hg.singularSnake.pluralized

/-- Different numbers give different names in every role. -/
theorem Numbered.mapName_injective (hg : Numbered g) (p : Profile) (role : Role) :
    Function.Injective fun n => p.mapName (g n) role := by
  have hsingle : Numbered fun n =>
      if role == .entity || role == .file then onLastWord singularize (Casing.toSnake (g n))
      else Casing.toSnake (g n) := by
    split
    · exact hg.toSnake.singularized
    · exact hg.toSnake
  unfold Profile.mapName
  dsimp only
  split
  · exact hsingle.singularized.pluralized.apply_injective _
  · exact hsingle.apply_injective _

end CrudGen.Naming
