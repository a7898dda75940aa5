import Mathlib.Data.List.Forall2
import CrudGen.Proofs.Text.Case
import CrudGen.Text.Basic

/-!
# Upper and lower case — whole texts

Lower case puts an image in the place of every character of a text. The characters of an image stay
as they are in lower case, wherever they stand, and are blank only if the character was. Names are
the same when they differ in the case of ASCII letters only. In lower case they are the same text,
with the same sigmas at the ends of their words: a sigma is not ASCII, and case does not count for
what stands around it.

Main results:

* `toLower_of_still` — a text of characters that stay as they are is in lower case.
* `still_of_mem_toLower` — a text in lower case has no other characters.
* `Trimmed.toLower` — a text without blanks at its ends has none there in lower case.
* `toLower_of_sameName`, `toUpper_of_sameName` — names that are the same are the same in lower case,
  and in upper case.
-/

namespace CrudGen.Text

-- images of characters are looked up in tables
set_option maxRecDepth 1000

-- ---------------------------------------------------------------------------
-- Runs
-- ---------------------------------------------------------------------------

/-- Whether the numbers from `low` to `high`, every second one if `alternate`, stand in none of some
runs in ascending order. Comparisons are spelled out, as the kernel goes through thousands. -/
def clearOf (low high : Nat) (alternate : Bool) : List (Nat × Nat × Nat × Nat) → Bool
  | [] => true
  | (first, last, step, _) :: rest =>
    high.blt first
      || (last.blt low || alternate && step == 2 && low % 2 != first % 2)
        && clearOf low high alternate rest

/-- A range that is clear of all runs meets none of them, number by number. -/
theorem not_run_of_clearOf {low high : Nat} {alternate : Bool}
    {runs : List (Nat × Nat × Nat × Nat)} (h : clearOf low high alternate runs = true)
    (hsorted : runs.Pairwise fun run run' => run.1 ≤ run'.1) {n : Nat} (hlow : low ≤ n)
    (hhigh : n ≤ high) (hparity : alternate = true → n % 2 = low % 2) :
    ∀ run ∈ runs, ¬ (run.1 ≤ n ∧ n ≤ run.2.1 ∧ (n - run.1) % run.2.2.1 = 0) := by
  induction runs with
  | nil => nofun
  | cons head rest ih =>
    obtain ⟨first, last, step, image⟩ := head
    rw [List.pairwise_cons] at hsorted
    simp only [clearOf, Bool.or_eq_true, Bool.and_eq_true, Nat.blt_eq, beq_iff_eq, bne_iff_ne] at h
    rcases h with hbehind | ⟨hhead, hrest⟩
    · -- all further runs begin behind the number as well
      rintro run hrun ⟨hfirst, -, -⟩
      rcases List.mem_cons.1 hrun with rfl | hrun
      · dsimp only at hfirst
        omega
      · have hle := hsorted.1 run hrun
        dsimp only at hle
        omega
    · rw [List.forall_mem_cons]
      refine ⟨?_, ih hrest hsorted.2⟩
      rintro ⟨hfirst, hlast, hstep⟩
      dsimp only at hfirst hlast hstep
      rcases hhead with hbefore | ⟨⟨halternate, rfl⟩, hother⟩
      · omega
      · have := hparity halternate
        omega

/-- The runs of the table stand in ascending order. -/
theorem lowerRuns_ascending : toLowerRuns.Pairwise fun run run' => run.1 ≤ run'.1 := by
  have hchain : toLowerRuns.IsChain fun run run' => run.1 ≤ run'.1 := by decide +kernel
  exact List.isChain_iff_pairwise.1 hchain

/-- Whether the image of a run stands beyond ASCII, apart from blanks, the dotted capital and all
runs. -/
def staysInLower : Nat × Nat × Nat × Nat → Bool
  | (first, last, step, image) =>
    Nat.ble 0x80 image
      && ((image + (last - first)).blt 0xD800
        || Nat.ble 0xE000 image && (image + (last - first)).blt 0x110000)
      && ((image + (last - first)).blt 0x130 || Nat.blt 0x130 image)
      && blankRanges.all (fun (low, high) => (image + (last - first)).blt low || high.blt image)
      && clearOf image (image + (last - first)) (step == 2 || first == last) toLowerRuns

/-- The sign of Kelvin alone becomes an ASCII letter. -/
theorem lowerRuns_stayInLower :
    toLowerRuns.all (fun run => staysInLower run || run == (0x212A, 0x212A, 1, 0x6B)) = true := by
  decide +kernel

-- ---------------------------------------------------------------------------
-- Images
-- ---------------------------------------------------------------------------

/-- A character that lower case leaves as it is, wherever it stands. -/
def Still (c : Char) : Prop :=
  lowerOf c = [c] ∧ c ≠ 'Σ'

instance : DecidablePred Still := fun c =>
  inferInstanceAs (Decidable (lowerOf c = [c] ∧ c ≠ 'Σ'))

/-- Letters of ASCII are still when they are lower-cased. -/
theorem still_ascii {c : Char} (hc : c.val < 0x80) : Still c.toLower :=
  forall_ascii (P := fun c => Still c.toLower) (by decide) hc

/-- A letter that no run meets is not shifted. -/
theorem shifted_eq_self {runs : List (Nat × Nat × Nat × Nat)} {c : Char}
    (h : ∀ run ∈ runs,
      ¬ (run.1 ≤ c.toNat ∧ c.toNat ≤ run.2.1 ∧ (c.toNat - run.1) % run.2.2.1 = 0)) :
    shifted runs c = c := by
  rw [shifted, List.find?_eq_none.2]
  intro run hrun
  have := h run hrun
  simp only [Bool.and_eq_true, decide_eq_true_eq, beq_iff_eq]
  tauto

/-- What another character becomes beyond ASCII stays as it is, and is not blank. -/
theorem still_shifted {c : Char} (hc : shifted toLowerRuns c ≠ c) :
    Still (shifted toLowerRuns c) ∧ isBlank (shifted toLowerRuns c) = false := by
  rcases shifted_cases toLowerRuns c with
    hself | ⟨⟨first, last, step, image⟩, hrun, k, hk, hstep, himage⟩
  · exact absurd hself hc
  · dsimp only at hk hstep himage
    rw [himage]
    -- the runs stay clear of one another, but for the Kelvin sign
    rcases Bool.or_eq_true_iff.1 (List.all_eq_true.1 lowerRuns_stayInLower _ hrun) with
      hstays | hkelvin
    · simp only [staysInLower, Bool.and_eq_true, Bool.or_eq_true, Nat.ble_eq, Nat.blt_eq,
        List.all_eq_true, Prod.forall] at hstays
      obtain ⟨⟨⟨⟨hlow, hvalid⟩, hdotted⟩, hblank⟩, hclear⟩ := hstays
      have hchar : (Char.ofNat (image + k)).toNat = image + k :=
        val_ofNat (by unfold Nat.isValidChar; omega)
      -- the image is in no run, so it is its own
      have hself : shifted toLowerRuns (Char.ofNat (image + k)) = Char.ofNat (image + k) := by
        refine shifted_eq_self ?_
        rw [hchar]
        refine not_run_of_clearOf hclear lowerRuns_ascending (by omega) (by omega) ?_
        intro halternate
        simp only [Bool.or_eq_true, beq_iff_eq] at halternate
        rcases halternate with rfl | rfl <;> omega
      refine ⟨⟨?_, ?_⟩, ?_⟩
      · have hhigh : ¬ (Char.ofNat (image + k)).val < 0x80 := by
          rw [UInt32.lt_iff_toNat_lt]
          change ¬ (Char.ofNat (image + k)).toNat < 0x80
          omega
        have hother : Char.ofNat (image + k) ≠ '\u0130' := by
          intro heq
          rw [heq] at hchar
          change 0x130 = image + k at hchar
          omega
        rw [lowerOf, if_neg hhigh, if_neg (by simpa using hother), hself]
      -- the image is not the sigma that depends on its place
      · intro hsigma
        rw [hsigma] at hself
        exact absurd hself (by decide)
      -- nor is it among the blanks
      · rw [isBlank, hchar, inRanges, List.any_eq_false]
        rintro ⟨low, high⟩ hrange
        have := hblank low high hrange
        simp only [Bool.and_eq_true, decide_eq_true_eq]
        omega
    · obtain ⟨rfl, rfl, rfl, rfl⟩ : first = 0x212A ∧ last = 0x212A ∧ step = 1 ∧ image = 0x6B := by
        simpa using hkelvin
      obtain rfl : k = 0 := Nat.le_zero.1 hk
      decide

/-- A character that is put in the place of another one stays as it is, and is not blank if the
other one is not. -/
def StaysFor (c d : Char) : Prop :=
  Still d ∧ (isBlank c = false → isBlank d = false)

/-- What a letter is lower-cased to is left alone when it is lower-cased again. -/
theorem staysFor_of_mem_lowerOf {c d : Char} (hc : c ≠ 'Σ') (hd : d ∈ lowerOf c) :
    StaysFor c d := by
  unfold lowerOf at hd
  split at hd
  · rename_i hlow
    obtain rfl := List.mem_singleton.1 hd
    exact forall_ascii (P := fun c => Still c.toLower ∧
      (isBlank c = false → isBlank c.toLower = false)) (by decide) hlow
  · rename_i hhigh
    split at hd
    · simp only [List.mem_cons, List.not_mem_nil, or_false] at hd
      rcases hd with rfl | rfl <;> exact ⟨by decide, fun _ => by decide⟩
    · rename_i hother
      obtain rfl := List.mem_singleton.1 hd
      by_cases hself : shifted toLowerRuns c = c
      · rw [hself]
        exact ⟨⟨by rw [lowerOf, if_neg hhigh, if_neg hother, hself], hc⟩, id⟩
      · exact ⟨(still_shifted hself).1, fun _ => (still_shifted hself).2⟩

/-- No letter disappears when it is lower-cased. -/
theorem lowerOf_ne_nil (c : Char) : lowerOf c ≠ [] := by
  unfold lowerOf
  split
  · exact List.cons_ne_nil _ _
  · split <;> exact List.cons_ne_nil _ _

-- ---------------------------------------------------------------------------
-- Texts
-- ---------------------------------------------------------------------------

/-- Images that stand in the place of characters. -/
abbrev Images (cs : List Char) (images : List (List Char)) : Prop :=
  List.Forall₂ (fun c image => image ≠ [] ∧ ∀ d ∈ image, StaysFor c d) cs images

/-- Lower case puts an image in the place of every character. -/
theorem exists_images (before cs : List Char) :
    ∃ images, lowerAfter before cs = images.flatten ∧ Images cs images := by
  induction cs generalizing before with
  | nil => exact ⟨[], rfl, .nil⟩
  | cons c rest ih =>
    obtain ⟨images, himages, hall⟩ := ih (c :: before)
    rw [lowerAfter, himages]
    refine ⟨_ :: images, rfl, .cons ?_ hall⟩
    split
    · -- either sigma stays as it is
      have hsigmas : ∀ d ∈ ['ς', 'σ'], StaysFor c d := by
        intro d hd
        simp only [List.mem_cons, List.not_mem_nil, or_false] at hd
        rcases hd with rfl | rfl <;> exact ⟨by decide, fun _ => by decide⟩
      split
      · exact ⟨List.cons_ne_nil _ _, fun d hd => hsigmas d (by simp_all)⟩
      · exact ⟨List.cons_ne_nil _ _, fun d hd => hsigmas d (by simp_all)⟩
    · rename_i hsigma
      refine ⟨lowerOf_ne_nil c, fun d hd => staysFor_of_mem_lowerOf ?_ hd⟩
      rintro rfl
      exact hsigma rfl

/-- The images of letters are still. -/
theorem Images.still {cs : List Char} {images : List (List Char)} (h : Images cs images) :
    ∀ d ∈ images.flatten, Still d := by
  induction h with
  | nil => nofun
  | cons himage _ ih =>
    rw [List.flatten_cons, List.forall_mem_append]
    exact ⟨fun d hd => (himage.2 d hd).1, ih⟩

/-- A text in lower case has only characters that stay as they are. -/
theorem still_of_mem_toLower {s : String} {d : Char} (hd : d ∈ (toLower s).toList) : Still d := by
  obtain ⟨images, himages, hall⟩ := exists_images [] s.toList
  rw [toLower, String.toList_ofList, himages] at hd
  exact hall.still d hd

/-- Text that is still is left alone, whatever stands before it. -/
theorem lowerAfter_of_still {before cs : List Char} (h : ∀ c ∈ cs, Still c) :
    lowerAfter before cs = cs := by
  induction cs generalizing before with
  | nil => rfl
  | cons c rest ih =>
    obtain ⟨⟨hself, hsigma⟩, hrest⟩ := List.forall_mem_cons.1 h
    rw [lowerAfter, if_neg (by simpa using hsigma), hself, ih hrest]
    rfl

/-- A text of characters that stay as they are is in lower case. -/
theorem toLower_of_still {s : String} (h : ∀ c ∈ s.toList, Still c) : toLower s = s := by
  rw [toLower, lowerAfter_of_still h, String.ofList_toList]

-- ---------------------------------------------------------------------------
-- Blanks at the ends
-- ---------------------------------------------------------------------------

/-- A text with no blanks at its ends. -/
def Trimmed (cs : List Char) : Prop :=
  (∀ c ∈ cs.head?, isBlank c = false) ∧ ∀ c ∈ cs.getLast?, isBlank c = false

/-- Nothing is dropped from the start if the first character stays. -/
theorem dropWhile_of_head {p : Char → Bool} {cs : List Char} (h : ∀ c ∈ cs.head?, p c = false) :
    cs.dropWhile p = cs := by
  cases cs with
  | nil => rfl
  | cons c rest => rw [List.dropWhile_cons, h c rfl]; rfl

/-- The first character that is left stays. -/
theorem head?_dropWhile (p : Char → Bool) (cs : List Char) :
    ∀ c ∈ (cs.dropWhile p).head?, p c = false := by
  intro c hc
  have := List.head?_dropWhile_not p cs
  rwa [Option.mem_def.1 hc] at this

/-- What is trimmed has no blanks at its ends. -/
theorem trimmed_trim (s : String) : Trimmed (trim s).toList := by
  rw [trim, String.toList_ofList]
  constructor
  · -- what is left in front of the blanks at the end begins as before
    intro c hc
    rw [List.head?_reverse] at hc
    obtain ⟨front, hfront⟩ := List.dropWhile_suffix isBlank
      (l := (s.toList.dropWhile isBlank).reverse)
    refine head?_dropWhile isBlank s.toList c ?_
    rw [← List.getLast?_reverse, ← hfront, List.getLast?_append, Option.mem_def.1 hc]
    rfl
  · rw [List.getLast?_reverse]
    exact head?_dropWhile _ _

/-- Text without blanks at its ends is left alone. -/
theorem trim_of_trimmed {s : String} (h : Trimmed s.toList) : trim s = s := by
  rw [trim, dropWhile_of_head h.1, dropWhile_of_head (by rw [List.head?_reverse]; exact h.2),
    List.reverse_reverse, String.ofList_toList]

/-- Images do not begin with a blank unless the text does. -/
theorem Images.first {cs : List Char} {images : List (List Char)} (h : Images cs images)
    (hcs : ∀ c ∈ cs.head?, isBlank c = false) : ∀ d ∈ images.flatten.head?, isBlank d = false := by
  cases h with
  | nil => nofun
  | @cons c image rest more himage _ =>
    obtain ⟨e, es, rfl⟩ := List.exists_cons_of_ne_nil himage.1
    intro d hd
    obtain rfl : e = d := Option.some.inj hd
    exact (himage.2 e List.mem_cons_self).2 (hcs c rfl)

theorem Images.last {cs : List Char} {images : List (List Char)} (h : Images cs images)
    (hcs : ∀ c ∈ cs.getLast?, isBlank c = false) :
    ∀ d ∈ images.flatten.getLast?, isBlank d = false := by
  induction h with
  | nil => nofun
  | @cons c image rest more himage hmore ih =>
    cases hmore with
    | nil =>
      rw [List.flatten_singleton]
      exact fun d hd => (himage.2 d (List.mem_of_getLast? hd)).2 (hcs c rfl)
    | cons himage' _ =>
      rw [List.flatten_cons, List.getLast?_append_of_ne_nil]
      · rw [List.getLast?_cons_cons] at hcs
        exact ih hcs
      · rw [List.flatten_cons]
        exact List.append_ne_nil_of_left_ne_nil himage'.1 _

/-- A text without blanks at its ends has none there in lower case. -/
theorem Trimmed.toLower {s : String} (h : Trimmed s.toList) : Trimmed (toLower s).toList := by
  obtain ⟨images, himages, hall⟩ := exists_images [] s.toList
  rw [Text.toLower, String.toList_ofList, himages]
  exact ⟨hall.first h.1, hall.last h.2⟩

-- ---------------------------------------------------------------------------
-- Names that are the same
-- ---------------------------------------------------------------------------

/-- What small and capital ASCII letters have in common, every character has in common with itself
in lower case. -/
theorem apply_toLower {β : Type} {f : Char → β}
    (hletters : ∀ n < 26, f (Char.ofNat (97 + n)) = f (Char.ofNat (65 + n))) (c : Char) :
    f c.toLower = f c := by
  by_cases hc : c.val < 0x80
  · have hlower : ∀ n < 128, (Char.ofNat n).toLower =
        if 65 ≤ n ∧ n < 91 then Char.ofNat (n + 32) else Char.ofNat n := by
      decide
    refine forall_ascii (P := fun c => f c.toLower = f c) (fun n hn => ?_) hc
    rw [hlower n hn]
    split
    · have hletter := hletters (n - 65) (by omega)
      rwa [show 97 + (n - 65) = n + 32 by omega, show 65 + (n - 65) = n by omega] at hletter
    · rfl
  · have hsame : c.toLower = c := by
      refine dif_neg fun hupper => ?_
      exact hc (UInt32.lt_of_le_of_lt hupper.2 (by decide))
    rw [hsame]

/-- What small and capital ASCII letters have in common, all characters have in common that are the
same in lower case. -/
theorem eq_of_toLower_eq {β : Type} {f : Char → β}
    (hletters : ∀ n < 26, f (Char.ofNat (97 + n)) = f (Char.ofNat (65 + n))) {c d : Char}
    (h : c.toLower = d.toLower) : f c = f d := by
  rw [← apply_toLower hletters c, h, apply_toLower hletters]

/-- Texts whose characters are the same when ASCII letters are lowered. -/
def SameFolded (cs ds : List Char) : Prop :=
  List.Forall₂ (fun c d => c.toLower = d.toLower) cs ds

/-- Texts that are the same letter by letter in ASCII are the same when folded. -/
theorem sameFolded_of_map_eq {cs ds : List Char}
    (h : cs.map Char.toLower = ds.map Char.toLower) : SameFolded cs ds := by
  induction cs generalizing ds with
  | nil =>
    rw [List.map_nil, eq_comm, List.map_eq_nil_iff] at h
    exact h ▸ .nil
  | cons c rest ih =>
    cases ds with
    | nil => cases h
    | cons d more =>
      obtain ⟨hhead, htail⟩ := List.cons.inj h
      exact .cons hhead (ih htail)

/-- The rule for a final sigma does not look through ASCII letters. All ranges that it does look
through stand beside them. -/
theorem isCaseIgnorable_letter {n : Nat} (h : 65 ≤ n ∧ n ≤ 90 ∨ 97 ≤ n ∧ n ≤ 122) :
    isCaseIgnorable (Char.ofNat n) = false := by
  have hranges : caseIgnorableRanges.all (fun (low, high) =>
      high.blt 65 || Nat.blt 90 low && high.blt 97 || Nat.blt 122 low) = true := by
    decide
  have hn : (Char.ofNat n).toNat = n := val_ofNat (by unfold Nat.isValidChar; omega)
  rw [isCaseIgnorable, inRanges, List.any_eq_false, hn]
  intro range hrange
  have hbeside := List.all_eq_true.1 hranges range hrange
  simp only [Bool.or_eq_true, Bool.and_eq_true, Nat.blt_eq, decide_eq_true_eq] at hbeside ⊢
  omega

/-- A letter with a case stands in one of them if it stands in the other. -/
theorem meetsCased_of_sameFolded {cs ds : List Char} (h : SameFolded cs ds) :
    meetsCased cs = meetsCased ds := by
  induction h with
  | nil => rfl
  | @cons c d rest more hcd _ ih =>
    have hignorable : isCaseIgnorable c = isCaseIgnorable d :=
      eq_of_toLower_eq (fun n hn => by
        rw [isCaseIgnorable_letter (by omega), isCaseIgnorable_letter (by omega)]) hcd
    have hcased : isCased c = isCased d := eq_of_toLower_eq (by decide +kernel) hcd
    rw [meetsCased, meetsCased, List.dropWhile_cons, List.dropWhile_cons, hignorable]
    cases isCaseIgnorable d with
    | true => exact ih
    | false => exact hcased

/-- Texts that are the same when folded are lower-cased to the same, so a sigma at the end of one is
at the end of the other. -/
theorem lowerAfter_of_sameFolded {before before' cs ds : List Char}
    (hbefore : SameFolded before before') (h : SameFolded cs ds) :
    lowerAfter before cs = lowerAfter before' ds := by
  induction h generalizing before before' with
  | nil => rfl
  | @cons c d rest more hcd hrest ih =>
    have hsigma : (c == 'Σ') = (d == 'Σ') :=
      eq_of_toLower_eq (f := fun c => c == 'Σ') (by decide) hcd
    have hlower : lowerOf c = lowerOf d := eq_of_toLower_eq (by decide) hcd
    rw [lowerAfter, lowerAfter, hsigma, hlower, meetsCased_of_sameFolded hbefore,
      meetsCased_of_sameFolded hrest, ih (.cons hcd hbefore)]

/-- Two spellings of a name are the same when folded. -/
theorem sameFolded_of_sameName {a b : String} (h : sameName a b = true) :
    SameFolded a.toList b.toList := by
  have hfolded := congrArg String.toList (beq_iff_eq.1 h)
  rw [foldAscii, foldAscii, String.toList_map, String.toList_map] at hfolded
  exact sameFolded_of_map_eq hfolded

/-- Names that are the same letter by letter are the same. -/
theorem sameName_of_map_eq {a b : String}
    (h : a.toList.map Char.toLower = b.toList.map Char.toLower) : sameName a b = true := by
  rw [sameName, beq_iff_eq, ← String.toList_inj, foldAscii, foldAscii, String.toList_map,
    String.toList_map, h]

/-- Names that are the same are the same in lower case. -/
theorem toLower_of_sameName {a b : String} (h : sameName a b = true) : toLower a = toLower b := by
  rw [toLower, toLower, lowerAfter_of_sameFolded .nil (sameFolded_of_sameName h)]

/-- Texts that are the same when folded are upper-cased to the same. -/
theorem upper_of_sameFolded {cs ds : List Char} (h : SameFolded cs ds) :
    cs.flatMap upperOf = ds.flatMap upperOf := by
  induction h with
  | nil => rfl
  | @cons c d rest more hcd _ ih =>
    have hupper : upperOf c = upperOf d := eq_of_toLower_eq (by decide) hcd
    rw [List.flatMap_cons, List.flatMap_cons, hupper, ih]

/-- Names that are the same are the same in upper case. -/
theorem toUpper_of_sameName {a b : String} (h : sameName a b = true) : toUpper a = toUpper b := by
  rw [toUpper, toUpper, upper_of_sameFolded (sameFolded_of_sameName h)]

end CrudGen.Text
