import CrudGen.Text.Case
import CrudGen.Text.Letter

/-!
# Upper and lower case — what characters become

The case mappings are tables of runs. What is checked of the image of every run holds of what any
character becomes.

Main results:

* `lowerOf_alphanumeric` — a letter or numeral becomes one, and only `İ` becomes more than that.
* `lowerOf_ascii` — what becomes an ASCII character is one, except for `İ` and the sign of Kelvin.
* `slash_not_mem_upperOf` — nothing becomes a slash.
-/

namespace CrudGen.Text

-- ---------------------------------------------------------------------------
-- Images
-- ---------------------------------------------------------------------------

theorem forall_ascii {P : Char → Prop} (h : ∀ n < 128, P (Char.ofNat n)) {c : Char}
    (hc : c.val < 0x80) : P c :=
  Char.ofNat_toNat c ▸ h c.toNat (UInt32.lt_iff_toNat_lt.1 hc)

theorem val_ofNat {n : Nat} (h : n.isValidChar) : (Char.ofNat n).val.toNat = n := by
  rw [Char.ofNat, dif_pos h]
  rfl

/-- A number beyond that of a character does not make this character. -/
theorem ofNat_ne {n : Nat} {d : Char} (h : d.toNat < n) (hd : d ≠ '\x00') : Char.ofNat n ≠ d := by
  rintro rfl
  by_cases hvalid : n.isValidChar
  · rw [Char.toNat, val_ofNat hvalid] at h
    exact Nat.lt_irrefl n h
  · rw [Char.ofNat, dif_neg hvalid] at hd
    exact hd rfl

/-- What a table makes of a character is the character itself or stands in the image of a run. -/
theorem shifted_cases (runs : List (Nat × Nat × Nat × Nat)) (c : Char) : shifted runs c = c ∨
    ∃ run ∈ runs, ∃ k ≤ run.2.1 - run.1, k % run.2.2.1 = 0 ∧
      shifted runs c = Char.ofNat (run.2.2.2 + k) := by
  rw [shifted]
  split
  · next first last step image hfind =>
    have hrun := List.find?_some hfind
    simp only [Bool.and_eq_true, decide_eq_true_eq, beq_iff_eq] at hrun
    exact .inr ⟨_, List.mem_of_find?_eq_some hfind, c.toNat - first,
      Nat.sub_le_sub_right hrun.1.2 first, hrun.2, rfl⟩
  · exact .inl rfl

/-- Whether the image of a run stands in a range of letters, beyond ASCII and among no surrogates.
Comparisons are spelled out, as the kernel goes through thousands of them. -/
def inLetters : Nat × Nat × Nat × Nat → Bool
  | (first, last, _, image) =>
    Nat.ble 0x80 image
      && ((image + (last - first)).blt 0xD800
        || Nat.ble 0xE000 image && (image + (last - first)).blt 0x110000)
      && alphabeticRanges.any fun (low, high) => low.ble image && (image + (last - first)).ble high

/-- The sign of Kelvin alone becomes an ASCII letter. -/
theorem lowerRuns_inLetters :
    toLowerRuns.all (fun run => inLetters run || run == (0x212A, 0x212A, 1, 0x6B)) = true := by
  decide +kernel

/-- A letter or numeral beyond ASCII becomes one. -/
theorem shifted_lowerRuns {c : Char} (hc : isAlphanumeric c = true) (hascii : ¬ c.val < 0x80) :
    isAlphanumeric (shifted toLowerRuns c) = true ∧
      (¬ (shifted toLowerRuns c).val < 0x80 ∨ shifted toLowerRuns c = 'k') := by
  rcases shifted_cases toLowerRuns c with
    hself | ⟨⟨first, last, step, image⟩, hrun, k, hk, -, himage⟩
  · rw [hself]
    exact ⟨hc, .inl hascii⟩
  -- the runs lead to letters beyond ASCII, but for the Kelvin sign
  · have hrun' := List.all_eq_true.1 lowerRuns_inLetters _ hrun
    rw [himage]
    rcases Bool.or_eq_true_iff.1 hrun' with hletters | hkelvin
    · simp only [inLetters, Bool.and_eq_true, Bool.or_eq_true, Nat.ble_eq, Nat.blt_eq,
        List.any_eq_true] at hletters
      obtain ⟨⟨hlow, hvalid⟩, range, hrange, hfirst, hlast⟩ := hletters
      dsimp only at hk
      have hchar : (Char.ofNat (image + k)).val.toNat = image + k :=
        val_ofNat (by unfold Nat.isValidChar; omega)
      have hbeyond : ¬ (Char.ofNat (image + k)).val < 0x80 := by
        rw [UInt32.lt_iff_toNat_lt, hchar]
        simp only [UInt32.reduceToNat]
        omega
      refine ⟨?_, .inl hbeyond⟩
      -- the image lies in a range of letters
      have hletter : isAlphabetic (Char.ofNat (image + k)) = true := by
        rw [isAlphabetic, if_neg hbeyond, inRanges, List.any_eq_true]
        refine ⟨range, hrange, ?_⟩
        rw [Char.toNat, hchar]
        simp only [Bool.and_eq_true, decide_eq_true_eq]
        omega
      rw [isAlphanumeric, hletter, Bool.true_or]
    · obtain ⟨rfl, rfl, rfl, rfl⟩ : first = 0x212A ∧ last = 0x212A ∧ step = 1 ∧ image = 0x6B := by
        simpa using hkelvin
      obtain rfl : k = 0 := Nat.le_zero.1 hk
      decide

-- ---------------------------------------------------------------------------
-- Lower case
-- ---------------------------------------------------------------------------

/-- A letter or numeral becomes one. `İ` becomes an `i` and a dot. -/
theorem lowerOf_alphanumeric {c : Char} (hc : isAlphanumeric c = true) :
    (∃ d, lowerOf c = [d] ∧ isAlphanumeric d = true) ∨ lowerOf c = ['i', '\u0307'] := by
  unfold lowerOf
  split
  · rename_i hascii
    have hall : isAlphanumeric c = true → isAlphanumeric c.toLower = true :=
      forall_ascii (P := fun c => isAlphanumeric c = true → isAlphanumeric c.toLower = true)
        (by decide) hascii
    exact .inl ⟨_, rfl, hall hc⟩
  · rename_i hascii
    split
    · exact .inr rfl
    · exact .inl ⟨_, rfl, (shifted_lowerRuns hc hascii).1⟩

/-- What becomes an ASCII character is one, except for `İ` and the sign of Kelvin. -/
theorem lowerOf_ascii {c d : Char} (hc : isAlphanumeric c = true) (hd : d ∈ lowerOf c)
    (hascii : d.val < 0x80) : d = 'i' ∨ d = 'k' ∨ c.val < 0x80 ∧ d = c.toLower := by
  unfold lowerOf at hd
  split at hd
  · rename_i hlow
    exact .inr (.inr ⟨hlow, List.mem_singleton.1 hd⟩)
  · rename_i hhigh
    split at hd
    · simp only [List.mem_cons, List.not_mem_nil, or_false] at hd
      rcases hd with rfl | rfl
      · exact .inl rfl
      · exact absurd hascii (by decide)
    · obtain rfl := List.mem_singleton.1 hd
      exact .inr (.inl ((shifted_lowerRuns hc hhigh).2.resolve_left fun hbeyond => hbeyond hascii))

-- ---------------------------------------------------------------------------
-- Upper case
-- ---------------------------------------------------------------------------

/-- The images of all runs stand behind the slash. -/
theorem upperRuns_behind_slash : ∀ run ∈ toUpperRuns, '/'.toNat < run.2.2.2 := by
  decide +kernel

theorem upperSeveral_without_slash :
    ∀ entry ∈ toUpperSeveral, ∀ image ∈ entry.2, Char.ofNat image ≠ '/' := by
  decide

/-- No letter or numeral becomes a slash. -/
theorem slash_not_mem_upperOf {c : Char} (hc : isAlphanumeric c = true) : '/' ∉ upperOf c := by
  unfold upperOf
  -- in ASCII, by the list of those that become several, or by a run
  split
  · rename_i hascii
    rw [List.mem_singleton]
    exact forall_ascii (P := fun c => isAlphanumeric c = true → '/' ≠ c.toUpper)
      (by decide) hascii hc
  · rename_i hhigh
    split
    · rename_i image hlookup
      rw [List.mem_map]
      rintro ⟨n, hn, hslash⟩
      obtain ⟨before, after, hentry, -⟩ := List.lookup_eq_some_iff.1 hlookup
      exact upperSeveral_without_slash (c.toNat, image) (by rw [hentry]; simp) n hn hslash
    · rw [List.mem_singleton]
      rcases shifted_cases toUpperRuns c with hself | ⟨run, hrun, k, hk, -, himage⟩
      · rw [hself]
        rintro rfl
        exact hhigh (by decide)
      · rw [himage]
        exact (ofNat_ne (Nat.lt_add_right k (upperRuns_behind_slash run hrun)) (by decide)).symm

end CrudGen.Text
