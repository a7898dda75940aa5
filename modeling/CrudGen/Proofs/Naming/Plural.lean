import CrudGen.Proofs.Naming.Numbered
import CrudGen.Proofs.Naming.Singular

/-!
# Naming — the plural and back

A word is given an ending in the plural, and the singular takes an ending off again. That is the
same ending unless the plural looks like that of another word: `axes` is read as the plural of `ax`
even if it comes from `axe`, `menus` is read as a singular, and `news` has no plural of its own. The
words that this happens to are known by their endings, four words apart.

Main results:

* `plural_pluralize` — what becomes of a word in the plural.
* `singularize_append_s` — what is taken off a word that ends with an `s`.
* `pluralize_reads_back` — which words come back from their plural; a table that is named by the
  plural of such a word gives its entity and its file the same name as one named by the word.
-/

namespace CrudGen

namespace Naming

open Text

-- ---------------------------------------------------------------------------
-- Words that are lost in the plural
-- ---------------------------------------------------------------------------

/-- Endings that are read as others when an `s` stands behind them. -/
def misleadingEndings : List String :=
  ["ie", "sse", "xe", "ze", "she", "che", "u", "i"]

/-- Words without such an ending whose plural has no plural of its own. -/
def misleadingWords : List String :=
  ["new", "setting", "sery", "specy"]

/-- Whether the plural of a word is read as that of another word, or as a singular. -/
def isMisleading (w : String) : Bool :=
  misleadingWords.contains w || (endsInOneOf w misleadingEndings && w != "ie")

-- ---------------------------------------------------------------------------
-- Endings
-- ---------------------------------------------------------------------------

variable {w : String} {front : List Char} {c : Char}

/-- A text ends before a tail as the text with the tail does. -/
theorem endsInOneOf_append (w tail : String) (endings : List String) :
    endsInOneOf (w ++ tail) (endings.map (· ++ tail)) = endsInOneOf w endings := by
  simp only [endsInOneOf, List.any_map, Function.comp_def, String.toList_append]
  refine congrArg endings.any (funext fun e => ?_)
  rw [Bool.eq_iff_iff, List.isSuffixOf_iff_suffix, List.isSuffixOf_iff_suffix]
  exact exists_congr fun front => by rw [← List.append_assoc, List.append_left_inj]

theorem endsInOneOf_cons (w e : String) (endings : List String) :
    endsInOneOf w (e :: endings) = (endsInOneOf w [e] || endsInOneOf w endings) := by
  simp [endsInOneOf]

theorem endsInOneOf_append_endings (w : String) (endings more : List String) :
    endsInOneOf w (endings ++ more) = (endsInOneOf w endings || endsInOneOf w more) :=
  List.any_append

/-- Only endings with its last character end a text. -/
theorem endsInOneOf_last (endings : List String) (h : w.toList = front ++ [c])
    (hnone : ∀ e ∈ endings, e ≠ "" ∧ e.toList.getLast? ≠ some c) :
    endsInOneOf w endings = false := by
  rw [Bool.eq_false_iff]
  intro hends
  obtain ⟨e, he, start, hstart⟩ := endsInOneOf_iff.1 hends
  obtain ⟨hne, hlast⟩ := hnone e he
  have hlasts := congrArg List.getLast? (h.symm.trans hstart)
  rw [List.getLast?_concat, List.getLast?_append_of_ne_nil _ (by simpa using hne)] at hlasts
  exact hlast hlasts.symm

/-- A text that does not end with an `s` has no longer ending with one. -/
theorem endsInOneOf_of_not_s (endings : List String) (h : endsInOneOf w ["s"] = false)
    (hs : ∀ e ∈ endings, endsInOneOf e ["s"] = true) : endsInOneOf w endings = false := by
  rw [Bool.eq_false_iff] at h ⊢
  intro hends
  obtain ⟨e, he, start, hstart⟩ := endsInOneOf_iff.1 hends
  obtain ⟨s, hmem, more, hmore⟩ := endsInOneOf_iff.1 (hs e he)
  exact h (endsInOneOf_iff.2 ⟨s, hmem, start ++ more, by rw [hstart, hmore, List.append_assoc]⟩)

/-- Irregular plurals do not end with an `s`. -/
theorem irregular_find?_append_s (w : String) :
    irregular.find? (fun p => p.2 == w ++ "s") = none := by
  rw [List.find?_eq_none]
  intro p hp hsame
  have hall : ∀ p ∈ irregular, endsInOneOf p.2 ["s"] = false := by decide
  have hends : endsInOneOf (w ++ "s") ["s"] = true :=
    endsInOneOf_iff.2 ⟨"s", by simp, w.toList, String.toList_append⟩
  rw [← beq_iff_eq.1 hsame, hall p hp] at hends
  cases hends

/-- A text with a tail is one of several if it is what stands before the tail in one of them. -/
theorem contains_append (fronts : List String) {texts : List String} {tail : String}
    (hfront : ∀ u ∈ texts, tail.toList <:+ u.toList → dropLast tail.toList.length u ∈ fronts)
    (htext : ∀ u ∈ fronts, u ++ tail ∈ texts) (w : String) :
    texts.contains (w ++ tail) = fronts.contains w := by
  rw [Bool.eq_iff_iff, List.contains_iff_mem, List.contains_iff_mem]
  constructor
  · intro hmem
    have hmem' := hfront _ hmem (by rw [String.toList_append]; exact List.suffix_append _ _)
    rwa [dropLast_eq String.toList_append, String.ofList_toList] at hmem'
  · exact htext w

/-- What has no plural of its own and ends with an `s`. -/
theorem uncountable_contains_append_s (w : String) :
    uncountable.contains (w ++ "s") =
      ["new", "serie", "specie", "statu", "setting"].contains w :=
  contains_append _ (by decide) (by decide) w

-- ---------------------------------------------------------------------------
-- The singular of a plural
-- ---------------------------------------------------------------------------

/-- A word that does not end with an `s` and is no irregular plural is in the singular. -/
theorem singularize_of_not_s (hirregular : ∀ p ∈ irregular, p.2 ≠ w)
    (hs : endsInOneOf w ["s"] = false) : singularize w = w := by
  have hfind : irregular.find? (fun p => p.2 == w) = none :=
    List.find?_eq_none.2 fun p hp => by simpa using hirregular p hp
  rw [singularize, hfind, endsInOneOf_of_not_s ["ies"] hs (by decide),
    endsInOneOf_of_not_s ["sses", "xes", "zes", "shes", "ches"] hs (by decide),
    endsInOneOf_of_not_s ["ss", "us", "is"] hs (by decide), hs]
  simp

/-- What is taken off a word that ends with an `s` is told by what stands before it. -/
theorem singularize_append_s (hne : w ≠ "") :
    singularize (w ++ "s") =
      if ["new", "serie", "specie", "statu", "setting"].contains w then w ++ "s"
      else if endsInOneOf w ["ie"] && w != "ie" then dropLast 3 (w ++ "s") ++ "y"
      else if endsInOneOf w ["sse", "xe", "ze", "she", "che"] then dropLast 2 (w ++ "s")
      else if endsInOneOf w ["s", "u", "i"] then w ++ "s" else w := by
  -- each test of `singularize` is one on `w`, as the last letter is known
  have hempty : (w ++ "s").isEmpty = false := by simp
  have hies : (w ++ "s" != "ies") = (w != "ie") := by
    rw [Bool.eq_iff_iff, bne_iff_ne, bne_iff_ne, show "ies" = "ie" ++ "s" from rfl, Ne,
      String.append_left_inj]
  have hs : endsInOneOf (w ++ "s") ["s"] = true :=
    endsInOneOf_iff.2 ⟨"s", by simp, w.toList, String.toList_append⟩
  have hsingle : (w ++ "s" != "s") = true := by
    rw [bne_iff_ne]
    intro hsame
    have hlists := congrArg String.toList hsame
    rw [String.toList_append] at hlists
    exact hne (by simpa using hlists)
  have hdrop : dropLast 1 (w ++ "s") = w := by
    rw [show 1 = "s".toList.length from rfl, dropLast_eq String.toList_append, String.ofList_toList]
  rw [singularize, hempty, uncountable_contains_append_s, irregular_find?_append_s, hies,
    show (["ies"] : List String) = ["ie"].map (· ++ "s") from rfl, endsInOneOf_append,
    show ["sses", "xes", "zes", "shes", "ches"] =
      ["sse", "xe", "ze", "she", "che"].map (· ++ "s") from rfl, endsInOneOf_append,
    show ["ss", "us", "is"] = ["s", "u", "i"].map (· ++ "s") from rfl, endsInOneOf_append,
    hs, hsingle, hdrop, Bool.false_or]
  rfl

-- ---------------------------------------------------------------------------
-- The plural
-- ---------------------------------------------------------------------------

/-- What becomes of a word in the plural: it stays as it is, or is given an ending. -/
inductive Plural (w : String) : String → Prop
  | kept (h : w ∈ "" :: uncountable ∨ (∃ p ∈ irregular, p.2 = w) ∨ endsInOneOf w ["s"] = true) :
      Plural w w
  | irregular {plural : String} (h : (w, plural) ∈ irregular) : Plural w plural
  | ies {front : List Char} {c : Char} (h : w.toList = front ++ [c, 'y'])
      (hirregular : ∀ p ∈ Naming.irregular, p.2 ≠ w) :
      Plural w (String.ofList (front ++ [c]) ++ "ies")
  | es (h : endsInOneOf w ["ss", "x", "z", "sh", "ch"] = true)
      (hirregular : ∀ p ∈ Naming.irregular, p.2 ≠ w) : Plural w (w ++ "es")
  | s (hne : w ≠ "") (hs : endsInOneOf w ["s"] = false)
      (hy : ∀ front c, w.toList = front ++ [c, 'y'] → isVowel c = true)
      (hirregular : ∀ p ∈ Naming.irregular, p.2 ≠ w) : Plural w (w ++ "s")

/-- A plural has one of these forms, told by the ending of the word. -/
theorem plural_pluralize (w : String) : Plural w (pluralize w) := by
  unfold pluralize
  split
  · rename_i hkept
    refine .kept (.inl ?_)
    simpa [String.isEmpty_iff] using hkept
  · rename_i hsome
    have hne : w ≠ "" := by
      rintro rfl
      exact hsome rfl
    split
    · rename_i plural hlookup
      obtain ⟨before, after, hentry, -⟩ := List.lookup_eq_some_iff.1 hlookup
      exact .irregular (by simp [hentry])
    · split
      · rename_i hplural
        obtain ⟨p, hp, hsame⟩ := List.any_eq_true.1 hplural
        exact .kept (.inr (.inl ⟨p, hp, beq_iff_eq.1 hsame⟩))
      · rename_i hnone
        have hirregular : ∀ p ∈ irregular, p.2 ≠ w := fun p hp hsame =>
          hnone (List.any_eq_true.2 ⟨p, hp, beq_iff_eq.2 hsame⟩)
        split
        · -- `y`
          rename_i c rest hreverse
          have hy : w.toList = rest.reverse ++ [c, 'y'] := by
            rw [← List.reverse_reverse w.toList, hreverse]
            simp
          have hs : endsInOneOf w ["s"] = false :=
            endsInOneOf_last _ (hy.trans (List.append_cons _ c ['y'])) (by decide)
          split
          · rename_i hvowel
            refine .s hne hs (fun front c' hy' => ?_) hirregular
            have hpair := (List.append_inj' (hy'.symm.trans hy) rfl).2
            exact (List.cons.inj hpair).1 ▸ hvowel
          · exact .ies hy hirregular
        · rename_i hy
          split
          · exact .es ‹_› hirregular
          · split
            · exact .kept (.inr (.inr ‹_›))
            · refine .s hne (Bool.eq_false_iff.2 ‹_›) (fun front c hfront => ?_) hirregular
              exact absurd (by simp [hfront]) (hy c front.reverse)

-- ---------------------------------------------------------------------------
-- The plural and back
-- ---------------------------------------------------------------------------

theorem isMisleading_of_ends {endings : List String} (hends : endsInOneOf w endings = true)
    (hsub : endings ⊆ misleadingEndings) (hne : w ≠ "ie") : isMisleading w = true := by
  obtain ⟨e, he, hfront⟩ := endsInOneOf_iff.1 hends
  rw [isMisleading, endsInOneOf_iff.2 ⟨e, hsub he, hfront⟩, bne_iff_ne.2 hne]
  simp

/-- A word that ends neither in a vowel that misleads nor as one of the other words does not
mislead. -/
theorem isMisleading_of_last (hlast : w.toList = front ++ [c])
    (hc : c ∉ ['e', 'u', 'i', 'w', 'g', 'y']) : isMisleading w = false := by
  have hnone : ∀ e ∈ misleadingEndings ++ misleadingWords, e ≠ "" ∧ e.toList.getLast? ≠ some c := by
    intro e he
    have hall : ∀ e ∈ misleadingEndings ++ misleadingWords, e ≠ "" ∧
        ∃ c ∈ ['e', 'u', 'i', 'w', 'g', 'y'], e.toList.getLast? = some c := by decide
    obtain ⟨hne, d, hd, heq⟩ := hall e he
    refine ⟨hne, fun hsame => hc ?_⟩
    rw [heq, Option.some_inj] at hsame
    exact hsame ▸ hd
  rw [List.forall_mem_append] at hnone
  have hwords : w ∉ misleadingWords := fun hw => (hnone.2 w hw).2 (by simp [hlast])
  rw [isMisleading, endsInOneOf_last _ hlast hnone.1, Bool.false_and, Bool.or_false]
  simpa using hwords

/-- A word that takes an `s` only does not mislead if its ending is none of the others. -/
theorem isMisleading_of_none
    (hnone : ["new", "serie", "specie", "statu", "setting"].contains w = false)
    (hie : (endsInOneOf w ["ie"] && w != "ie") = false)
    (hes : endsInOneOf w ["sse", "xe", "ze", "she", "che"] = false)
    (hui : endsInOneOf w ["u", "i"] = false)
    (hy : ∀ front c, w.toList = front ++ [c, 'y'] → isVowel c = true) : isMisleading w = false := by
  have hwords : misleadingWords.contains w = false := by
    rw [Bool.eq_false_iff]
    intro hword
    rcases List.mem_cons.1 (List.contains_iff_mem.1 hword) with rfl | hword
    · exact absurd hnone (by decide)
    rcases List.mem_cons.1 hword with rfl | hword
    · exact absurd hnone (by decide)
    -- a consonant before the `y`
    rcases List.mem_pair.1 hword with rfl | rfl
    · exact absurd (hy ['s', 'e'] 'r' (by decide)) (by decide)
    · exact absurd (hy ['s', 'p', 'e'] 'c' (by decide)) (by decide)
  rw [isMisleading, hwords, Bool.false_or,
    show misleadingEndings = "ie" :: (["sse", "xe", "ze", "she", "che"] ++ ["u", "i"]) from rfl,
    endsInOneOf_cons, endsInOneOf_append_endings, hes, hui, Bool.or_false, Bool.or_false, hie]

/-- Where the plural only adds an `s`, the `s` must not make up another ending. -/
theorem singularize_append_s_eq_iff (hne : w ≠ "") (hs : endsInOneOf w ["s"] = false)
    (hy : ∀ front c, w.toList = front ++ [c, 'y'] → isVowel c = true) :
    singularize (w ++ "s") = w ↔ isMisleading w = false := by
  have hlonger : w ++ "s" ≠ w := fun hsame => by
    have hlength := congrArg String.length hsame
    simp at hlength
  rw [singularize_append_s hne]
  -- the branches of `singularize` one after the other; all but the last change the ending
  split
  · rename_i hkept
    have hall : ∀ u ∈ ["new", "serie", "specie", "statu", "setting"], isMisleading u = true := by
      decide
    simp [hlonger, hall w (List.contains_iff_mem.1 hkept)]
  -- `ies` became `y`, but the word ended in `ie`
  · rename_i hnone
    split
    · rename_i hie
      obtain ⟨hends, hword⟩ := Bool.and_eq_true_iff.1 hie
      obtain ⟨e, he, front, hfront⟩ := endsInOneOf_iff.1 hends
      obtain rfl := List.mem_singleton.1 he
      have hchanged : dropLast 3 (w ++ "s") ++ "y" ≠ w := fun hsame => by
        have hlasts := congrArg (List.getLast? ∘ String.toList) hsame
        simp [hfront] at hlasts
      simp [hchanged, isMisleading_of_ends hends (by decide) (bne_iff_ne.1 hword)]
    · rename_i hie
      -- two letters went with the `s`
      split
      · rename_i hes
        have hshorter : dropLast 2 (w ++ "s") ≠ w := fun hsame => by
          have hlen : 0 < w.toList.length := List.length_pos_iff.2 (by simpa using hne)
          have hlength := congrArg (List.length ∘ String.toList) hsame
          simp only [Function.comp_apply, dropLast, String.toList_ofList, String.toList_append,
            String.reduceToList, List.length_take, List.length_append, List.length_singleton,
            ← String.length_toList] at hlength
          omega
        have hword : w ≠ "ie" := by
          rintro rfl
          exact absurd hes (by decide)
        simp [hshorter, isMisleading_of_ends hes (by decide) hword]
      · rename_i hes
        split
        · rename_i hsui
          rw [endsInOneOf_cons, hs, Bool.false_or] at hsui
          have hword : w ≠ "ie" := by
            rintro rfl
            exact absurd hsui (by decide)
          simp [hlonger, isMisleading_of_ends hsui (by decide) hword]
        -- only the `s` was dropped
        · rename_i hsui
          rw [endsInOneOf_cons, hs, Bool.false_or] at hsui
          exact iff_of_true rfl (isMisleading_of_none (by simpa using hnone) (by simpa using hie)
            (by simpa using hes) (by simpa using hsui) hy)

/-- The endings that take an `es` have a last character. -/
theorem exists_last_of_sibilant (h : endsInOneOf w ["ss", "x", "z", "sh", "ch"] = true) :
    ∃ front, ∃ c ∈ ['s', 'x', 'z', 'h'], w.toList = front ++ [c] ∧
      (c = 's' → ∃ more, front = more ++ ['s']) := by
  obtain ⟨e, he, front, hfront⟩ := endsInOneOf_iff.1 h
  simp only [List.mem_cons, List.not_mem_nil, or_false] at he
  rcases he with rfl | rfl | rfl | rfl | rfl
  · exact ⟨front ++ ['s'], 's', by simp, by simp [hfront], fun _ => ⟨front, rfl⟩⟩
  · exact ⟨front, 'x', by simp, hfront, by simp⟩
  · exact ⟨front, 'z', by simp, hfront, by simp⟩
  · exact ⟨front ++ ['s'], 'h', by simp, by simp [hfront], by simp⟩
  · exact ⟨front ++ ['c'], 'h', by simp, by simp [hfront], by simp⟩

/-- A plural that ends in `es` behind a sibilant is taken back. -/
theorem singularize_append_es (h : endsInOneOf w ["ss", "x", "z", "sh", "ch"] = true) :
    singularize (w ++ "es") = w := by
  -- with an `e` in between the ending is one of those that lose two letters
  have hes : endsInOneOf (w ++ "e") ["sse", "xe", "ze", "she", "che"] = true := by
    rw [show ["sse", "xe", "ze", "she", "che"] = ["ss", "x", "z", "sh", "ch"].map (· ++ "e") from rfl,
      endsInOneOf_append, h]
  have hnone : ["new", "serie", "specie", "statu", "setting"].contains (w ++ "e") = false := by
    have hall : ∀ u ∈ ["new", "serie", "specie", "statu", "setting"],
        endsInOneOf u ["sse", "xe", "ze", "she", "che"] = false := by decide
    rw [Bool.eq_false_iff]
    intro hmem
    rw [hall _ (List.contains_iff_mem.1 hmem)] at hes
    cases hes
  have hie : endsInOneOf (w ++ "e") ["ie"] = false := by
    obtain ⟨front, c, hc, hfront, -⟩ := exists_last_of_sibilant h
    rw [show (["ie"] : List String) = ["i"].map (· ++ "e") from rfl, endsInOneOf_append]
    refine endsInOneOf_last _ hfront fun e he => ?_
    obtain rfl := List.mem_singleton.1 he
    refine ⟨by decide, ?_⟩
    rintro heq
    obtain rfl := Option.some_inj.1 heq
    exact absurd hc (by decide)
  have htail : w ++ "es" = w ++ "e" ++ "s" := by rw [String.append_assoc]; rfl
  rw [htail, singularize_append_s (by simp), hnone, hie, hes]
  rw [if_neg (by simp), if_neg (by simp), if_pos rfl, ← htail,
    show 2 = "es".toList.length from rfl, dropLast_eq String.toList_append, String.ofList_toList]

/-- A word that ends with a sibilant is in the singular. -/
theorem singularize_of_sibilant (hirregular : ∀ p ∈ irregular, p.2 ≠ w)
    (h : endsInOneOf w ["ss", "x", "z", "sh", "ch"] = true) : singularize w = w := by
  obtain ⟨front, c, hc, hfront, hss⟩ := exists_last_of_sibilant h
  -- a word in `ss` is one in `s` with an `s` behind it; the others have no `s` at the end
  by_cases hs : c = 's'
  · obtain ⟨more, rfl⟩ := hss hs
    have hw : w = String.ofList (more ++ ['s']) ++ "s" := by
      rw [← String.ofList_toList (s := w), hfront, hs, String.ofList_append]
    have hends : endsInOneOf (String.ofList (more ++ ['s'])) ["s", "u", "i"] = true :=
      endsInOneOf_iff.2 ⟨"s", by simp, more, String.toList_ofList⟩
    have hnone : ["new", "serie", "specie", "statu", "setting"].contains
        (String.ofList (more ++ ['s'])) = false := by
      have hall : ∀ u ∈ ["new", "serie", "specie", "statu", "setting"],
          u.toList.getLast? ≠ some 's' := by decide
      rw [Bool.eq_false_iff]
      exact fun hmem => hall _ (List.contains_iff_mem.1 hmem) (by simp)
    rw [hw, singularize_append_s (by simp), hnone,
      endsInOneOf_last ["ie"] String.toList_ofList (by decide),
      endsInOneOf_last ["sse", "xe", "ze", "she", "che"] String.toList_ofList
        (by decide), hends]
    simp
  · refine singularize_of_not_s hirregular (endsInOneOf_last _ hfront fun e he => ?_)
    obtain rfl := List.mem_singleton.1 he
    exact ⟨by decide, fun heq => hs (Option.some_inj.1 heq).symm⟩

/-- A plural that ends in `ies` is taken back, unless it has no plural of its own. -/
theorem singularize_append_ies {stem : String} (hne : stem ≠ "") :
    singularize (stem ++ "ies") = stem ++ "y" ↔ isMisleading (stem ++ "y") = false := by
  have htail : stem ++ "ies" = stem ++ "ie" ++ "s" := by
    rw [String.append_assoc]
    rfl
  have hends : endsInOneOf (stem ++ "ie") ["ie"] = true :=
    endsInOneOf_iff.2 ⟨"ie", by simp, stem.toList, String.toList_append⟩
  have hlong : (stem ++ "ie" != "ie") = true := by
    rw [bne_iff_ne]
    intro hsame
    have hlists := congrArg String.toList hsame
    rw [String.toList_append] at hlists
    exact hne (by simpa using hlists)
  have hy : endsInOneOf (stem ++ "y") misleadingEndings = false :=
    endsInOneOf_last _ String.toList_append (by decide)
  have hwords : ["new", "serie", "specie", "statu", "setting"].contains (stem ++ "ie") =
      misleadingWords.contains (stem ++ "y") := by
    rw [contains_append ["ser", "spec"] (by decide) (by decide) stem,
      contains_append ["ser", "spec"] (by decide) (by decide) stem]
  -- the word with `ie` is kept if the one with `y` is misleading
  rw [htail, singularize_append_s (by simp), hwords, hends, hlong, isMisleading, hy, Bool.false_and,
    Bool.or_false, ← htail, show 3 = "ies".toList.length from rfl, dropLast_eq String.toList_append,
    String.ofList_toList]
  cases misleadingWords.contains (stem ++ "y") with
  | false => simp
  | true =>
    -- otherwise the ending would have been left alone
    have hother : stem ++ "ies" ≠ stem ++ "y" := fun hsame => by
      have hlength := congrArg String.length hsame
      rw [String.length_append, String.length_append, Nat.add_left_cancel_iff] at hlength
      exact absurd hlength (by decide)
    simp [hother]

/-- A word is the singular of its plural, or is lost in it. -/
theorem singularize_pluralize (w : String) :
    singularize (pluralize w) = singularize w ↔ isMisleading w = false := by
  have hplural := plural_pluralize w
  generalize pluralize w = plural at hplural
  -- how the plural was made decides what is undone
  cases hplural with
  | kept h =>
    refine iff_of_true rfl ?_
    rcases h with hsame | ⟨p, hp, rfl⟩ | hs
    · have hall : ∀ u ∈ "" :: uncountable, isMisleading u = false := by decide
      exact hall w hsame
    · have hall : ∀ p ∈ irregular, isMisleading p.2 = false := by decide
      exact hall p hp
    · obtain ⟨e, he, front, hfront⟩ := endsInOneOf_iff.1 hs
      obtain rfl := List.mem_singleton.1 he
      exact isMisleading_of_last hfront (by decide)
  | irregular h =>
    have hall : ∀ p ∈ irregular, singularize p.2 = singularize p.1 ∧ isMisleading p.1 = false := by
      decide
    exact iff_of_true (hall _ h).1 (hall _ h).2
  | @ies front c h hirregular =>
    have hw : w = String.ofList (front ++ [c]) ++ "y" := by
      rw [← String.ofList_toList (s := w), h, List.append_cons, String.ofList_append]
    have hs : endsInOneOf w ["s"] = false :=
      endsInOneOf_last _ (h.trans (List.append_cons front c ['y'])) (by decide)
    rw [singularize_of_not_s hirregular hs, hw, singularize_append_ies (by simp)]
  | es h hirregular =>
    obtain ⟨front, c, hc, hfront, -⟩ := exists_last_of_sibilant h
    have hall : ∀ c ∈ ['s', 'x', 'z', 'h'], c ∉ ['e', 'u', 'i', 'w', 'g', 'y'] := by decide
    rw [singularize_append_es h, singularize_of_sibilant hirregular h]
    exact iff_of_true rfl (isMisleading_of_last hfront (hall c hc))
  | s hne hs hy hirregular =>
    rw [singularize_of_not_s hirregular hs, singularize_append_s_eq_iff hne hs hy]

theorem isLower_pluralize (h : ∀ c ∈ w.toList, c.isLower = true) :
    ∀ c ∈ (pluralize w).toList, c.isLower = true := by
  have hplural := plural_pluralize w
  generalize pluralize w = plural at hplural
  cases hplural with
  | kept _ => exact h
  | irregular hentry =>
    have hall : ∀ p ∈ irregular, ∀ c ∈ p.2.toList, c.isLower = true := by decide
    exact hall _ hentry
  | @ies front c hends _ =>
    rw [hends, List.append_cons, List.forall_mem_append] at h
    rw [String.toList_append, String.toList_ofList, List.forall_mem_append]
    exact ⟨h.1, by decide⟩
  | es _ _ =>
    rw [String.toList_append, List.forall_mem_append]
    exact ⟨h, by decide⟩
  | s _ _ _ _ =>
    rw [String.toList_append, List.forall_mem_append]
    exact ⟨h, by decide⟩

theorem small_of_isLower {c : Char} (h : c.isLower = true) : Small c := by
  have hascii : c.val < 0x80 := by
    have hle : 'a'.val ≤ c.val ∧ c.val ≤ 'z'.val := by
      change (decide (c.val ≥ 'a'.val) && decide (c.val ≤ 'z'.val)) = true at h
      simpa using h
    exact UInt32.lt_of_le_of_lt hle.2 (by decide)
  obtain ⟨hletter, hlower, hapart⟩ := forall_ascii
    (P := fun c => c.isLower = true →
      isAlphanumeric c = true ∧ lowerOf c = [c] ∧ isUpper c = false ∧ c ≠ 'Σ')
    (by decide +kernel) hascii h
  exact ⟨hletter, hlower, hapart⟩

/-- A word in small letters is a name in snake case, and is inflected as a whole. -/
theorem onLastWord_of_isLower (f : String → String) (h : ∀ c ∈ w.toList, c.isLower = true) :
    onLastWord f (Casing.toSnake w) = f w := by
  have hsnake : Casing.toSnake w = w := by
    by_cases hne : w.toList = []
    · rw [String.toList_eq_nil_iff.1 hne]
      decide
    · have hsmall : ∀ c ∈ w.toList, Small c := fun c hc => small_of_isLower (h c hc)
      have hwords := words_of_small hne hsmall
      rw [String.ofList_toList] at hwords
      rw [Casing.toSnake, Casing.separated, hwords, List.map_singleton, List.intercalate_singleton,
        lowerWord_of_small hsmall, String.ofList_toList]
  have hsingle : '_' ∉ w.toList := fun hmem => absurd (h '_' hmem) (by decide)
  have hword := onLastWord_single f hsingle
  rw [String.ofList_toList] at hword
  rw [hsnake, hword]

/-- **Plurals.** A word has the singular of its plural exactly if its plural does not mislead. A
table that is named by such a plural gives its entity and its file the same name as one that is
named by the word. -/
theorem pluralize_reads_back (hw : ∀ c ∈ w.toList, c.isLower = true) :
    (singularize (pluralize w) = singularize w ↔ isMisleading w = false) ∧
      (isMisleading w = false → ∀ p : Profile, ∀ role ∈ [Role.entity, Role.file],
        p.mapName (pluralize w) role = p.mapName w role) := by
  refine ⟨singularize_pluralize w, fun hplain p role hrole => ?_⟩
  have hsame : onLastWord singularize (Casing.toSnake (pluralize w)) =
      onLastWord singularize (Casing.toSnake w) := by
    rw [onLastWord_of_isLower _ hw, onLastWord_of_isLower _ (isLower_pluralize hw),
      (singularize_pluralize w).2 hplain]
  have hsingle : (role == .entity || role == .file) = true := by
    revert role
    decide
  simp only [Profile.mapName, hsingle, if_true, hsame]

theorem pluralize_reads_back_policy :
    (∀ c ∈ "policy".toList, c.isLower = true) ∧ isMisleading "policy" = false ∧
      singularize (pluralize "policy") = singularize "policy" ∧
        ∀ p : Profile, p.mapName (pluralize "policy") .file = p.mapName "policy" .file :=
  have hwitness := pluralize_reads_back (w := "policy") (by decide)
  ⟨by decide, by decide, hwitness.1.2 (by decide), fun p => hwitness.2 (by decide) p .file (by simp)⟩

/-- The plural of `menu` is read as a singular. -/
theorem singularize_menus : "menu" ≠ "" ∧ (∀ c ∈ "menu".toList, c.isLower = true) ∧
    singularize (pluralize "menu") ≠ singularize "menu" := by
  decide

end Naming

end CrudGen
