import CrudGen.Proofs.Naming.Plural

/-!
# Naming — the characters of names

A name in generated code is made of the letters and numerals of an identifier, in lower or upper
case, with underscores or hyphens between its words. So it has no blank, bracket, comma, quote or
other mark that would end it.

Main results:

* `tame_upperOf` — upper case makes no such mark of a letter or numeral.
* `tame_mapName` — a name has none, whatever the identifier, the profile and the role.
-/

namespace CrudGen

namespace Naming

open Text

-- ---------------------------------------------------------------------------
-- Characters
-- ---------------------------------------------------------------------------

/-- A character that may stand in a name: one beyond ASCII, a letter, a numeral, an underscore or a
hyphen. -/
def Tame (c : Char) : Prop :=
  c.val < 0x80 → isAlphanumeric c = true ∨ c = '_' ∨ c = '-'

instance : DecidablePred Tame := fun c =>
  inferInstanceAs (Decidable (c.val < 0x80 → isAlphanumeric c = true ∨ c = '_' ∨ c = '-'))

/-- Letters and digits are tame. -/
theorem tame_of_alphanumeric {c : Char} (h : isAlphanumeric c = true) : Tame c :=
  fun _ => .inl h

/-- What a letter is lower-cased to is tame. -/
theorem tame_lowerOf {c d : Char} (hc : isAlphanumeric c = true) (hd : d ∈ lowerOf c) : Tame d := by
  intro hascii
  rcases lowerOf_ascii hc hd hascii with rfl | rfl | ⟨hlow, rfl⟩
  · exact .inl (by decide)
  · exact .inl (by decide)
  · exact .inl (forall_ascii (P := fun c => isAlphanumeric c = true → isAlphanumeric c.toLower = true)
      (by decide) hlow hc)

/-- Whether the image of a run stands beyond ASCII, or is one letter. Comparisons are spelled out,
as the kernel goes through thousands of them. -/
def staysTame : Nat × Nat × Nat × Nat → Bool
  | (first, last, _, image) =>
    Nat.ble 0x80 image
        && ((image + (last - first)).blt 0xD800
          || Nat.ble 0xE000 image && (image + (last - first)).blt 0x110000)
      || first.beq last && isAlphanumeric (Char.ofNat image)

/-- No run of the table leads to a character that is not tame. -/
theorem upperRuns_stayTame : toUpperRuns.all staysTame = true := by
  decide

/-- Letters that become several when they are upper-cased become tame ones. -/
theorem upperSeveral_tame :
    ∀ entry ∈ toUpperSeveral, ∀ image ∈ entry.2, Tame (Char.ofNat image) := by
  decide

/-- Upper case makes no mark of a letter or numeral. -/
theorem tame_upperOf {c d : Char} (hc : isAlphanumeric c = true) (hd : d ∈ upperOf c) : Tame d := by
  unfold upperOf at hd
  split at hd
  -- in ASCII the image of a letter or digit is one again
  · rename_i hlow
    obtain rfl := List.mem_singleton.1 hd
    exact fun _ => .inl (forall_ascii
      (P := fun c => isAlphanumeric c = true → isAlphanumeric c.toUpper = true)
      (by decide) hlow hc)
  · split at hd
    -- letters that become several are listed, and so are their images
    · rename_i image hlookup
      obtain ⟨n, hn, rfl⟩ := List.mem_map.1 hd
      obtain ⟨before, after, hentry, -⟩ := List.lookup_eq_some_iff.1 hlookup
      exact upperSeveral_tame (c.toNat, image) (by rw [hentry]; simp) n hn
    -- all others are shifted by a run, which leads beyond ASCII or has one letter only
    · obtain rfl := List.mem_singleton.1 hd
      rcases shifted_cases toUpperRuns c with
        hself | ⟨⟨first, last, step, image⟩, hrun, k, hk, -, himage⟩
      · rw [hself]
        exact tame_of_alphanumeric hc
      · dsimp only at hk himage
        rw [himage]
        have hrun' := List.all_eq_true.1 upperRuns_stayTame _ hrun
        simp only [staysTame, Bool.and_eq_true, Bool.or_eq_true, Nat.ble_eq, Nat.blt_eq,
          Nat.beq_eq] at hrun'
        rcases hrun' with ⟨hhigh, hvalid⟩ | ⟨hone, hletter⟩
        · intro hascii
          have hchar : (Char.ofNat (image + k)).val.toNat = image + k :=
            val_ofNat (by unfold Nat.isValidChar; omega)
          rw [UInt32.lt_iff_toNat_lt, hchar] at hascii
          simp only [UInt32.reduceToNat] at hascii
          omega
        · obtain rfl : k = 0 := by omega
          exact tame_of_alphanumeric hletter

-- ---------------------------------------------------------------------------
-- Words
-- ---------------------------------------------------------------------------

/-- A text whose characters may stand in a name. -/
def TameName (s : String) : Prop :=
  ∀ c ∈ s.toList, Tame c

instance : DecidablePred TameName := fun s =>
  inferInstanceAs (Decidable (∀ c ∈ s.toList, Tame c))

/-- A mark that may stand in no name stands in none. -/
theorem TameName.not_mem {s : String} (h : TameName s) {c : Char} (hc : ¬Tame c) : c ∉ s.toList :=
  fun hmem => hc (h c hmem)

section Words

variable {w : List Char} (h : ∀ c ∈ w, isAlphanumeric c = true)
include h

/-- A word in lower case is tame. -/
theorem tame_lowerWord : ∀ d ∈ lowerWord w, Tame d := by
  induction w using lowerWord.induct with
  | case1 => exact fun d hd => absurd hd List.not_mem_nil
  | case2 =>
    intro d hd
    obtain rfl := List.mem_singleton.1 hd
    decide
  | case3 c rest hsigma ih =>
    rw [List.forall_mem_cons] at h
    rw [lowerWord, List.forall_mem_append]
    · exact ⟨fun d hd => tame_lowerOf h.1 hd, ih h.2⟩
    · exact hsigma

/-- A word in upper case is tame. -/
theorem tame_upperWord : ∀ d ∈ upperWord w, Tame d := by
  intro d hd
  obtain ⟨c, hc, hd⟩ := List.mem_flatMap.1 hd
  exact tame_upperOf (h c hc) hd

/-- A capitalised word is tame. -/
theorem tame_capitalWord : ∀ d ∈ capitalWord w, Tame d := by
  cases w with
  | nil => exact fun d hd => absurd hd List.not_mem_nil
  | cons c rest =>
    rw [List.forall_mem_cons] at h
    rw [capitalWord, List.forall_mem_append]
    exact ⟨fun d hd => tame_upperOf h.1 hd, tame_lowerWord h.2⟩

end Words

/-- Tame texts with a tame separator between them are tame. -/
theorem tame_intercalate {separator : Char} (hseparator : Tame separator)
    {texts : List (List Char)} (h : ∀ text ∈ texts, ∀ c ∈ text, Tame c) :
    ∀ c ∈ [separator].intercalate texts, Tame c := by
  intro c hc
  rcases exists_of_mem_intercalate hc with hc | ⟨text, htext, hc⟩
  · exact List.mem_singleton.1 hc ▸ hseparator
  · exact h text htext c hc

/-- Words that are tame one by one are so together. -/
theorem tame_flatMap {f : List Char → List Char} {ws : List (List Char)}
    (h : ∀ w ∈ ws, ∀ c ∈ f w, Tame c) : ∀ c ∈ ws.flatMap f, Tame c := fun c hc =>
  have ⟨w, hw, hmem⟩ := List.mem_flatMap.1 hc
  h w hw c hmem

/-- Whatever a casing puts together from words may stand in a name. -/
theorem tame_joined (casing : Casing) {ws : List (List Char)}
    (h : ∀ w ∈ ws, ∀ c ∈ w, isAlphanumeric c = true) : ∀ c ∈ joined casing ws, Tame c := by
  have hcapital : ∀ w ∈ ws, ∀ c ∈ capitalWord w, Tame c := fun w hw => tame_capitalWord (h w hw)
  have hlower : ∀ text ∈ ws.map lowerWord, ∀ c ∈ text, Tame c := by
    rw [List.forall_mem_map]
    exact fun w hw => tame_lowerWord (h w hw)
  -- a casing joins words that are written small, written large or capitalized
  cases casing with
  | snake => exact tame_intercalate (by decide) hlower
  | kebab => exact tame_intercalate (by decide) hlower
  | screamingSnake =>
    refine tame_intercalate (by decide) ?_
    rw [List.forall_mem_map]
    exact fun w hw => tame_upperWord (h w hw)
  | pascal => exact tame_flatMap hcapital
  | preserve => exact tame_flatMap hcapital
  -- in camel case the first word differs from the others
  | camel =>
    cases ws with
    | nil => exact fun d hd => absurd hd List.not_mem_nil
    | cons first rest =>
      rw [List.forall_mem_cons] at h hcapital
      rw [joined, List.forall_mem_append]
      exact ⟨tame_lowerWord h.1, tame_flatMap hcapital.2⟩

-- ---------------------------------------------------------------------------
-- Names
-- ---------------------------------------------------------------------------

/-- A name in any casing is tame, and one that is preserved is so if it was. -/
theorem tameName_apply {casing : Casing} {name : String}
    (h : casing = .preserve → TameName name) : TameName (casing.apply name) := by
  by_cases hpreserve : casing = .preserve
  · subst hpreserve
    exact h rfl
  · rw [TameName, toList_apply hpreserve]
    exact tame_joined casing fun w hw => alphanumeric_of_mem_words hw

/-- A name in snake case is tame. -/
theorem tameName_toSnake (name : String) : TameName (Casing.toSnake name) :=
  have happly : TameName (Casing.snake.apply name) := tameName_apply fun h => absurd h (by decide)
  happly

/-- The singular of a tame name is tame. -/
theorem tameName_singularize {s : String} (h : TameName s) : TameName (singularize s) := by
  have hsingular := singular_singularize s
  generalize singularize s = t at hsingular
  -- what is left of the name is a part of it, behind which perhaps a letter stands
  cases hsingular with
  | kept _ => exact h
  | irregular hentry =>
    have hall : ∀ p ∈ irregular, TameName p.1 := by decide
    exact hall _ hentry
  | ies hends =>
    rw [TameName, hends, List.forall_mem_append] at h
    rw [TameName, String.toList_ofList, List.forall_mem_append]
    exact ⟨h.1, by decide⟩
  | es hends _ _ =>
    rw [TameName, hends, List.forall_mem_append] at h
    rw [TameName, String.toList_ofList]
    exact h.1
  | s hends _ _ =>
    rw [TameName, hends, List.forall_mem_append] at h
    rw [TameName, String.toList_ofList]
    exact h.1

/-- The plural of a tame name is tame. -/
theorem tameName_pluralize {s : String} (h : TameName s) : TameName (pluralize s) := by
  have hplural := plural_pluralize s
  generalize pluralize s = t at hplural
  cases hplural with
  | kept _ => exact h
  | irregular hentry =>
    have hall : ∀ p ∈ irregular, TameName p.2 := by decide
    exact hall _ hentry
  | @ies front c hends _ =>
    rw [TameName, hends, List.append_cons, List.forall_mem_append] at h
    rw [TameName, String.toList_append, String.toList_ofList, List.forall_mem_append]
    exact ⟨h.1, by decide⟩
  | es _ _ =>
    rw [TameName, String.toList_append, List.forall_mem_append]
    exact ⟨h, by decide⟩
  | s _ _ _ _ =>
    rw [TameName, String.toList_append, List.forall_mem_append]
    exact ⟨h, by decide⟩

/-- Changing the last word keeps a name tame. -/
theorem tameName_onLastWord {f : String → String} (hf : ∀ s, TameName s → TameName (f s))
    {snake : String} (h : TameName snake) : TameName (onLastWord f snake) := by
  have hpieces : ∀ piece ∈ ((splitAll (fun c => c == '_') snake.toList).map String.ofList).reverse,
      TameName piece := by
    intro piece hpiece
    rw [List.mem_reverse] at hpiece
    obtain ⟨cs, hcs, rfl⟩ := List.mem_map.1 hpiece
    intro c hc
    rw [String.toList_ofList] at hc
    have hmem : c ∈ (splitAll (fun c => c == '_') snake.toList).flatten :=
      List.mem_flatten.2 ⟨cs, hcs, hc⟩
    rw [flatten_splitAll] at hmem
    exact h c (List.mem_filter.1 hmem).1
  have hinflected := (inflectLast_spec hf hpieces).1
  rw [onLastWord, TameName, String.toList_intercalate]
  refine tame_intercalate (by decide) ?_
  rw [List.forall_mem_map]
  exact fun piece hpiece => hinflected piece (List.mem_reverse.1 hpiece)

/-- **Names.** A name has only characters that may stand in one. -/
theorem tame_mapName (p : Profile) (identifier : String) (role : Role) :
    TameName (p.mapName identifier role) := by
  have hsingular {s : String} (h : TameName s) : TameName (onLastWord singularize s) :=
    tameName_onLastWord (fun _ => tameName_singularize) h
  have hplural {s : String} (h : TameName s) : TameName (onLastWord pluralize s) :=
    tameName_onLastWord (fun _ => tameName_pluralize) h
  have hsnake := tameName_toSnake identifier
  simp only [Profile.mapName]
  refine tameName_apply fun _ => ?_
  split_ifs
  · exact hplural (hsingular (hsingular hsnake))
  · exact hplural (hsingular hsnake)
  · exact hsingular hsnake
  · exact hsnake

end Naming

end CrudGen
