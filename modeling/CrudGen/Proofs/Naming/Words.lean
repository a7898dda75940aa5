import CrudGen.Naming.Inflection
import CrudGen.Proofs.Text.Pieces

/-!
# Naming — words and pieces of a name

A separator ends the piece before it, so the words of a name are those of what stands before a
separator and those of what stands behind it. A piece without capitals is one word.

Main results:

* `words_spec` — the words of a name make up its letters and numerals.
* `words_append` — the words of two texts with a separator between them.
* `words_of_small`, `lowerWord_of_small` — a piece in lower case is one word, and stays as it is.
* `digits_injective`, `small_of_isDigit` — the digits of a number tell it apart, and are such a
  piece.
-/

namespace CrudGen

namespace Naming

open Text

-- ---------------------------------------------------------------------------
-- Words
-- ---------------------------------------------------------------------------

/-- Without capitals nothing ends a word before the end of the piece. -/
theorem wordsFrom_of_not_upper {cs : List Char} (hne : cs ≠ [])
    (h : ∀ c ∈ cs, isUpper c = false) (mode : Mode) (word : List Char) :
    wordsFrom mode word cs = [word.reverse ++ cs] := by
  induction cs generalizing mode word with
  | nil => exact absurd rfl hne
  | cons c rest ih =>
    rw [List.forall_mem_cons] at h
    cases rest with
    | nil => simp [wordsFrom]
    | cons next more =>
      have hnext : isUpper next = false := h.2 next List.mem_cons_self
      rw [wordsFrom, if_neg (by simp [hnext]), if_neg (by simp [h.1]), ih (by simp) h.2]
      simp

/-- A letter or numeral that is as small as it gets. -/
structure Small (c : Char) : Prop where
  letter : isAlphanumeric c = true
  lower  : lowerOf c = [c]
  apart  : isUpper c = false ∧ c ≠ 'Σ'

theorem lowerWord_of_small {cs : List Char} (h : ∀ c ∈ cs, Small c) : lowerWord cs = cs := by
  induction cs with
  | nil => rfl
  | cons c rest ih =>
    rw [List.forall_mem_cons] at h
    rw [lowerWord, h.1.lower, ih h.2, List.singleton_append]
    rintro rfl -
    exact h.1.apart.2 rfl

/-- A piece that is small throughout is one word. -/
theorem words_of_small {cs : List Char} (hne : cs ≠ []) (h : ∀ c ∈ cs, Small c) :
    words (String.ofList cs) = [cs] := by
  have hpieces : splitAll (fun c => !isAlphanumeric c) cs = [cs] :=
    splitAll_eq_singleton fun c hc => by simp [(h c hc).letter]
  simp [words, hpieces, wordsFrom_of_not_upper hne fun c hc => (h c hc).apart.1]

/-- The words of two texts with a separator between them. -/
theorem words_append {c : Char} (hc : isAlphanumeric c = false) (before after : List Char) :
    words (String.ofList (before ++ c :: after)) =
      words (String.ofList before) ++ words (String.ofList after) := by
  have hpieces : splitAll (fun c => !isAlphanumeric c) (before ++ c :: after) =
      splitAll (fun c => !isAlphanumeric c) before ++ splitAll (fun c => !isAlphanumeric c) after :=
    splitAll_append (by simpa using hc) before after
  simp [words, hpieces]

/-- The words of a piece make it up, and none of them is empty. -/
theorem wordsFrom_spec {cs : List Char} (hne : cs ≠ []) (mode : Mode) (word : List Char)
    (hword : mode = .upper → word ≠ []) :
    (wordsFrom mode word cs).flatten = word.reverse ++ cs ∧
      ∀ w ∈ wordsFrom mode word cs, w ≠ [] := by
  induction cs generalizing mode word with
  | nil => exact absurd rfl hne
  | cons c rest ih =>
    cases rest with
    | nil => simp [wordsFrom]
    | cons next more =>
      rw [wordsFrom]
      -- a word ends before `c`, behind it, or goes on
      split
      · obtain ⟨hflatten, hall⟩ := ih (by simp) .boundary [] (by simp)
        exact ⟨by simp [hflatten], List.forall_mem_cons.2 ⟨by simp, hall⟩⟩
      · split
        · rename_i hupper
          obtain ⟨hflatten, hall⟩ := ih (by simp) .boundary [c] (by simp)
          refine ⟨by simp [hflatten], List.forall_mem_cons.2 ⟨?_, hall⟩⟩
          simpa using hword hupper.1
        · obtain ⟨hflatten, hall⟩ := ih (by simp) (mode.after c) (c :: word) (by simp)
          exact ⟨by simp [hflatten], hall⟩

/-- The words of a name make up its letters and numerals, and none of them is empty. -/
theorem words_spec (name : String) :
    (words name).flatten = name.toList.filter isAlphanumeric ∧ ∀ w ∈ words name, w ≠ [] := by
  have hpiece (piece : List Char) : (wordsFrom .boundary [] piece).flatten = piece ∧
      ∀ w ∈ wordsFrom .boundary [] piece, w ≠ [] := by
    cases piece with
    | nil => simp [wordsFrom]
    | cons c rest => exact wordsFrom_spec (by simp) .boundary [] (by simp)
  have hpieces := flatten_splitAll (fun c => !isAlphanumeric c) name.toList
  simp only [Bool.not_not] at hpieces
  rw [words, ← hpieces, List.flatMap_def, List.flatten_flatten, List.map_map]
  constructor
  · exact congrArg List.flatten (List.map_id'' (fun piece => (hpiece piece).1) _)
  · simp only [List.mem_flatten, List.mem_map]
    rintro w ⟨ws, ⟨piece, -, rfl⟩, hw⟩
    exact (hpiece piece).2 w hw

theorem alphanumeric_of_mem_words {name : String} {w : List Char} (hw : w ∈ words name) :
    ∀ c ∈ w, isAlphanumeric c = true := by
  intro c hc
  have hmem : c ∈ (words name).flatten := List.mem_flatten.2 ⟨w, hw, hc⟩
  rw [(words_spec name).1] at hmem
  exact (List.mem_filter.1 hmem).2

/-- A name with a letter or numeral has a word. -/
theorem words_ne_nil {name : String} {c : Char} (hmem : c ∈ name.toList)
    (hc : isAlphanumeric c = true) : words name ≠ [] := by
  intro hnone
  have hflatten := (words_spec name).1
  rw [hnone, List.flatten_nil, eq_comm, List.filter_eq_nil_iff] at hflatten
  exact hflatten c hmem hc

-- ---------------------------------------------------------------------------
-- Numbers
-- ---------------------------------------------------------------------------

/-- The decimal digits of a number. -/
def digits (n : Nat) : List Char :=
  (toString n).toList

theorem digits_injective : Function.Injective digits := by
  intro m n h
  have hdigits : Nat.toDigits 10 m = Nat.toDigits 10 n := by
    simpa [digits, Nat.toString_eq_ofList_toDigits] using h
  calc
    m = Nat.ofDigitChars 10 (Nat.toDigits 10 m) 0 := Nat.ofDigitChars_ten_toDigits.symm
    _ = Nat.ofDigitChars 10 (Nat.toDigits 10 n) 0 := by rw [hdigits]
    _ = n := Nat.ofDigitChars_ten_toDigits

theorem digits_ne_nil (n : Nat) : digits n ≠ [] := by
  simp [digits, Nat.toDigits_ne_nil]

theorem isDigit_of_mem_digits {n : Nat} {c : Char} (h : c ∈ digits n) : c.isDigit = true := by
  simp only [digits, Nat.toString_eq_ofList_toDigits, String.toList_ofList] at h
  exact Nat.isDigit_of_mem_toDigits (by decide) (by decide) h

/-- There are ten digits. -/
theorem exists_of_isDigit {c : Char} (h : c.isDigit = true) :
    ∃ k < 10, c = Char.ofNat (48 + k) := by
  have hval : 48 ≤ c.toNat ∧ c.toNat ≤ 57 := by
    simpa [Char.isDigit, UInt32.le_iff_toNat_le] using h
  refine ⟨c.toNat - 48, by omega, ?_⟩
  rw [show 48 + (c.toNat - 48) = c.toNat by omega, Char.ofNat_toNat]

theorem small_of_isDigit {c : Char} (h : c.isDigit = true) : Small c := by
  obtain ⟨k, hk, rfl⟩ := exists_of_isDigit h
  have hall : ∀ k < 10, isAlphanumeric (Char.ofNat (48 + k)) = true ∧
      lowerOf (Char.ofNat (48 + k)) = [Char.ofNat (48 + k)] ∧
      isUpper (Char.ofNat (48 + k)) = false ∧ Char.ofNat (48 + k) ≠ 'Σ' := by decide
  obtain ⟨hletter, hlower, hapart⟩ := hall k hk
  exact ⟨hletter, hlower, hapart⟩

theorem upperOf_of_isDigit {c : Char} (h : c.isDigit = true) : upperOf c = [c] := by
  obtain ⟨k, hk, rfl⟩ := exists_of_isDigit h
  revert k
  decide

theorem small_s : Small 's' :=
  ⟨by decide, by decide, by decide⟩

end Naming

end CrudGen
