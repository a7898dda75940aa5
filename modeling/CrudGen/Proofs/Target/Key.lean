import Mathlib.Data.List.TakeWhile
import Mathlib.Data.String.Basic
import CrudGen.Proofs.Text.Lower
import CrudGen.Target.Key

/-!
# Target keys — order and texts

Target keys are linearly ordered. The language of a key that was read has no separator in it, so
that such keys differ if their texts do.

The keys that can be read are those in lower case, without blanks at their ends, whose language has
no separator. Such a key is read from its halves joined by any separator, so that neither its text
nor its directory loses anything.

Main results:

* `separator_free_of_ofText` — what is read has no separator in the language.
* `text_inj` — keys that were read are told apart by their texts.
* `readable_iff` — which keys can be read.
* `ofText_joined` — a key is read from its halves joined by a separator.
* `directory_inj` — keys that were read are told apart by their directories.
* `ofText_spellings` — text and directory of a key that was read are read as this key.
-/

namespace CrudGen

namespace TargetKey

-- ---------------------------------------------------------------------------
-- Order
-- ---------------------------------------------------------------------------

theorem eq_of_parts {a b : TargetKey} (hlanguage : a.language = b.language)
    (hframework : a.framework = b.framework) : a = b := by
  cases a
  cases b
  simp only at hlanguage hframework
  rw [hlanguage, hframework]

theorem lt_def {a b : TargetKey} :
    a < b ↔ a.language < b.language ∨ (a.language = b.language ∧ a.framework < b.framework) :=
  Iff.rfl

instance : LE TargetKey where
  le a b := ¬ b < a

theorem not_lt_iff {a b : TargetKey} : ¬ b < a ↔
    a.language < b.language ∨ (a.language = b.language ∧ a.framework ≤ b.framework) := by
  rw [lt_def, not_or, not_and, not_lt, not_lt, le_iff_lt_or_eq]
  constructor
  · rintro ⟨hlt | heq, hframework⟩
    · exact .inl hlt
    · exact .inr ⟨heq, hframework heq.symm⟩
  · rintro (hlt | ⟨heq, hframework⟩)
    · exact ⟨.inl hlt, fun heq => absurd heq (ne_of_gt hlt)⟩
    · exact ⟨.inr heq, fun _ => hframework⟩

theorem le_def {a b : TargetKey} : a ≤ b ↔
    a.language < b.language ∨ (a.language = b.language ∧ a.framework ≤ b.framework) :=
  not_lt_iff

instance : LinearOrder TargetKey where
  le_refl a := le_def.2 (.inr ⟨rfl, le_refl _⟩)
  le_trans a b c hab hbc := by
    rw [le_def] at hab hbc ⊢
    rcases hab with hab | ⟨hab, hab'⟩ <;> rcases hbc with hbc | ⟨hbc, hbc'⟩
    · exact .inl (hab.trans hbc)
    · exact .inl (hbc ▸ hab)
    · exact .inl (hab ▸ hbc)
    · exact .inr ⟨hab.trans hbc, hab'.trans hbc'⟩
  le_antisymm a b hab hba := by
    rw [le_def] at hab hba
    rcases hab with hab | ⟨heq, hab⟩ <;> rcases hba with hba | ⟨heq', hba⟩
    · exact absurd hba hab.asymm
    · exact absurd heq' (ne_of_gt hab)
    · exact absurd heq (ne_of_gt hba)
    · exact eq_of_parts heq (le_antisymm hab hba)
  le_total a b := by
    rw [le_def, le_def]
    rcases lt_trichotomy a.language b.language with hlt | heq | hgt
    · exact .inl (.inl hlt)
    · exact (le_total a.framework b.framework).imp (fun h => .inr ⟨heq, h⟩)
        fun h => .inr ⟨heq.symm, h⟩
    · exact .inr (.inl hgt)
  lt_iff_le_not_ge a b :=
    ⟨fun h => ⟨not_lt_iff.2 (h.imp_right (And.imp_right le_of_lt)), not_not_intro h⟩,
      fun h => not_not.1 h.2⟩
  toDecidableLE a b := inferInstanceAs (Decidable (¬ b < a))
  toDecidableLT := inferInstance
  toDecidableEq := inferInstance

-- ---------------------------------------------------------------------------
-- Texts
-- ---------------------------------------------------------------------------

/-- What is cut off before the first separator has none. -/
theorem separator_free_of_splitOnce {isSeparator : Char → Bool} {s before after : String}
    (h : Text.splitOnce isSeparator s = some (before, after)) :
    ∀ c ∈ before.toList, isSeparator c = false := by
  rw [Text.splitOnce] at h
  split at h
  · cases h
  · obtain ⟨rfl, -⟩ := Prod.mk.inj (Option.some.inj h)
    intro c hc
    rw [String.toList_ofList] at hc
    simpa using List.mem_takeWhile_imp hc

/-- The language of a key that was read has no separator. -/
theorem separator_free_of_ofText {s : String} {key : TargetKey} (h : ofText s = .ok key) :
    ∀ c ∈ key.language.toList, isSeparator c = false := by
  rw [ofText] at h
  split at h
  · rename_i hsplit
    split at h
    · cases h
    · obtain rfl := Except.ok.inj h
      exact separator_free_of_splitOnce hsplit
  · cases h

/-- Keys that were read are told apart by their texts. -/
theorem text_inj {s s' : String} {a b : TargetKey} (ha : ofText s = .ok a) (hb : ofText s' = .ok b)
    (htext : a.text = b.text) : a = b := by
  -- the language is what stands before the first slash
  have hlanguage {s : String} {key : TargetKey} (hkey : ofText s = .ok key) :
      key.text.toList.takeWhile (· != '/') = key.language.toList := by
    have hfree : ∀ c ∈ key.language.toList, (c != '/') = true := by
      intro c hc
      rw [bne_iff_ne]
      rintro rfl
      exact absurd (separator_free_of_ofText hkey _ hc) (by decide)
    rw [text, String.toList_append, String.toList_append, List.append_assoc,
      List.takeWhile_append_of_pos hfree]
    exact List.append_nil _
  have hsame : a.language = b.language := by
    rw [← String.toList_inj, ← hlanguage ha, htext, hlanguage hb]
  rw [text, text, hsame] at htext
  exact eq_of_parts hsame ((String.append_right_inj _).1 htext)

end TargetKey

-- ---------------------------------------------------------------------------
-- Both spellings
-- ---------------------------------------------------------------------------

namespace Text

theorem splitOnce_eq_some_iff {isSeparator : Char → Bool} {s before after : String} :
    splitOnce isSeparator s = some (before, after) ↔
      (∀ c ∈ before.toList, isSeparator c = false) ∧
        ∃ sep, isSeparator sep = true ∧ s.toList = before.toList ++ sep :: after.toList := by
  constructor
  · intro h
    refine ⟨TargetKey.separator_free_of_splitOnce h, ?_⟩
    rw [splitOnce] at h
    split at h
    · cases h
    · rename_i sep rest hdrop
      obtain ⟨rfl, rfl⟩ := Prod.mk.inj (Option.some.inj h)
      -- the first separator stands behind the longest start without one
      have hcut := List.takeWhile_append_dropWhile (p := fun c => !isSeparator c) (l := s.toList)
      have htail : s.toList.dropWhile (fun c => !isSeparator c) = sep :: rest := by
        rw [← hdrop]
        exact List.drop_left.symm.trans (congrArg (List.drop _) hcut)
      refine ⟨sep, ?_, ?_⟩
      · have hhead := List.head?_dropWhile_not (fun c => !isSeparator c) s.toList
        rw [htail] at hhead
        simpa using hhead
      · rw [String.toList_ofList, String.toList_ofList, ← htail, hcut]
  · rintro ⟨hplain, sep, hsep, hs⟩
    have htake : s.toList.takeWhile (fun c => !isSeparator c) = before.toList := by
      rw [hs, List.takeWhile_append_of_pos fun c hc => by simp [hplain c hc],
        List.takeWhile_cons_of_neg (by simp [hsep]), List.append_nil]
    rw [splitOnce, htake, hs, List.drop_left]
    simp only [String.ofList_toList]

end Text

namespace TargetKey

/-- A key as it is read: in lower case, with no blanks at its ends and no separator in the
language. -/
structure Readable (key : TargetKey) : Prop where
  language  : key.language ≠ ""
  framework : key.framework ≠ ""
  plain     : ∀ c ∈ key.language.toList, isSeparator c = false
  still     : ∀ c ∈ key.language.toList ++ key.framework.toList, Text.Still c
  first     : ∀ c ∈ key.language.toList.head?, Text.isBlank c = false
  last      : ∀ c ∈ key.framework.toList.getLast?, Text.isBlank c = false

theorem trimmed_joined_iff {before after : List Char} (hbefore : before ≠ []) (hafter : after ≠ [])
    {sep : Char} : Text.Trimmed (before ++ sep :: after) ↔
      (∀ c ∈ before.head?, Text.isBlank c = false) ∧
        ∀ c ∈ after.getLast?, Text.isBlank c = false := by
  have hlast : (before ++ sep :: after).getLast? = after.getLast? := by
    rw [List.append_cons, List.getLast?_append_of_ne_nil _ hafter]
  rw [Text.Trimmed, List.head?_append_of_ne_nil _ hbefore, hlast]

theorem readable_of_ofText {s : String} {key : TargetKey} (h : ofText s = .ok key) :
    key.Readable := by
  have htrimmed := (Text.trimmed_trim s).toLower
  have hstill {c : Char} (hc : c ∈ (Text.toLower (Text.trim s)).toList) : Text.Still c :=
    Text.still_of_mem_toLower hc
  rw [ofText] at h
  generalize Text.toLower (Text.trim s) = lower at h htrimmed hstill
  -- the text is trimmed and small, and is cut at its first separator
  split at h
  · rename_i language framework hsplit
    split at h
    · cases h
    · rename_i hempty
      obtain rfl := Except.ok.inj h
      obtain ⟨hplain, sep, -, hlower⟩ := Text.splitOnce_eq_some_iff.1 hsplit
      simp only [Bool.or_eq_true, String.isEmpty_iff, not_or] at hempty
      have hends := (trimmed_joined_iff (by simpa using hempty.1) (by simpa using hempty.2)).1
        (hlower ▸ htrimmed)
      refine ⟨hempty.1, hempty.2, hplain, fun c hc => hstill ?_, hends.1, hends.2⟩
      rw [hlower]
      rw [List.mem_append] at hc ⊢
      exact hc.imp_right (List.mem_cons_of_mem _)
  · cases h

/-- A key is read from its halves joined by a separator. -/
theorem Readable.ofText_joined {key : TargetKey} (h : key.Readable) (sep : Char)
    (hsep : isSeparator sep = true) {s : String}
    (hs : s.toList = key.language.toList ++ sep :: key.framework.toList) : ofText s = .ok key := by
  have hstill : ∀ c ∈ s.toList, Text.Still c := by
    intro c hc
    rw [hs, List.mem_append, List.mem_cons] at hc
    rcases hc with hc | rfl | hc
    · exact h.still c (List.mem_append_left _ hc)
    · simp only [isSeparator, Bool.or_eq_true, beq_iff_eq] at hsep
      rcases hsep with (rfl | rfl) | rfl <;> decide +kernel
    · exact h.still c (List.mem_append_right _ hc)
  have htrimmed : Text.Trimmed s.toList := by
    rw [hs, trimmed_joined_iff (by simpa using h.language) (by simpa using h.framework)]
    exact ⟨h.first, h.last⟩
  rw [ofText, Text.trim_of_trimmed htrimmed, Text.toLower_of_still hstill]
  rw [Text.splitOnce_eq_some_iff.2 ⟨h.plain, sep, hsep, hs⟩]
  simp [h.language, h.framework]

/-- The keys that can be read. -/
theorem readable_iff {key : TargetKey} : (∃ s, ofText s = .ok key) ↔ key.Readable := by
  constructor
  · rintro ⟨s, hs⟩
    exact readable_of_ofText hs
  · intro h
    exact ⟨key.text, h.ofText_joined '/' rfl (by simp [text])⟩

theorem ofText_text {s : String} {key : TargetKey} (h : ofText s = .ok key) :
    ofText key.text = .ok key :=
  (readable_of_ofText h).ofText_joined '/' rfl (by simp [text])

theorem ofText_directory {s : String} {key : TargetKey} (h : ofText s = .ok key) :
    ofText key.directory = .ok key :=
  (readable_of_ofText h).ofText_joined '-' rfl (by simp [directory])

/-- Keys that were read are told apart by their directories. -/
theorem directory_inj {s s' : String} {a b : TargetKey} (ha : ofText s = .ok a)
    (hb : ofText s' = .ok b) (h : a.directory = b.directory) : a = b :=
  Except.ok.inj ((ofText_directory ha).symm.trans (h ▸ ofText_directory hb))

/-- **Spellings of a key.** A key that was read is read again from its text and from its directory,
and another key that was read has another text and another directory. -/
theorem ofText_spellings {s : String} {key : TargetKey} (h : ofText s = .ok key) :
    ofText key.text = .ok key ∧ ofText key.directory = .ok key ∧
      ∀ s' key', ofText s' = .ok key' →
        (key.text = key'.text → key = key') ∧ (key.directory = key'.directory → key = key') :=
  ⟨ofText_text h, ofText_directory h, fun _ _ h' => ⟨text_inj h h', directory_inj h h'⟩⟩

/-- A key with blanks around it, a colon in it, a sigma at the end of a word, and a slash in its
framework. -/
theorem ofText_spellings_of_sigma :
    TargetKey.ofText " RUST:ΑΣ Web/x\u2003" = .ok { language := "rust", framework := "ας web/x" } ∧
    TargetKey.ofText "rust/ας web/x" = .ok { language := "rust", framework := "ας web/x" } ∧
    TargetKey.ofText "rust-ας web/x" = .ok { language := "rust", framework := "ας web/x" } := by
  have hread : TargetKey.ofText " RUST:ΑΣ Web/x\u2003" =
      .ok { language := "rust", framework := "ας web/x" } := by decide +kernel
  obtain ⟨htext, hdirectory, -⟩ := ofText_spellings hread
  exact ⟨hread, htext, hdirectory⟩

end TargetKey

end CrudGen
