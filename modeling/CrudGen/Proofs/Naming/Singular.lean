import Mathlib.Data.List.Basic
import CrudGen.Proofs.Naming.Words
import CrudGen.Proofs.Text.Case

/-!
# Naming — names in the singular

Files are called by names in the singular, in snake case. What such a name looks like follows from
what becomes of its last word: in lower case it is made of letters and numerals, and in the singular
it keeps its `s` only behind another one, `u` or `i`, or if it has no plural of its own.

Main results:

* `singular_singularize` — what becomes of a word in the singular.
* `singular_ends` — the names in the singular that end with an `s`.
* `toSnake_ends` — a name in snake case begins and ends with no underscore.
* `slash_not_mem_toPascal` — a name in title case has no slash.
-/

namespace CrudGen.Naming

open Text

-- ---------------------------------------------------------------------------
-- Texts in lower case
-- ---------------------------------------------------------------------------

/-- What lowering leaves: letters and numerals without ASCII capitals, and maybe dots behind an `i`.
-/
inductive Lowered : List Char → Prop
  | nil : Lowered []
  | letter {c : Char} {cs : List Char} (hc : isAlphanumeric c = true) (hsmall : c.isUpper = false)
      (rest : Lowered cs) : Lowered (c :: cs)
  | dotted {cs : List Char} (rest : Lowered cs) : Lowered ('i' :: '\u0307' :: cs)

namespace Lowered

variable {cs ds : List Char}

/-- Texts in lower case are so together. -/
theorem append (hcs : Lowered cs) (hds : Lowered ds) : Lowered (cs ++ ds) := by
  induction hcs with
  | nil => exact hds
  | letter hc hsmall _ ih => exact .letter hc hsmall ih
  | dotted _ ih => exact .dotted ih

/-- Small letters and digits are in lower case. -/
theorem of_forall (h : ∀ c ∈ cs, isAlphanumeric c = true ∧ c.isUpper = false) : Lowered cs := by
  induction cs with
  | nil => exact .nil
  | cons c rest ih =>
    rw [List.forall_mem_cons] at h
    exact .letter h.1.1 h.1.2 (ih h.2)

/-- A text in lower case that is cut off is one. -/
theorem of_append (h : Lowered (cs ++ ds)) : Lowered cs := by
  generalize htext : cs ++ ds = text at h
  induction h generalizing cs with
  | nil => exact (List.append_eq_nil_iff.1 htext).1 ▸ .nil
  | letter hc hsmall _ ih =>
    cases cs with
    | nil => exact .nil
    | cons d rest =>
      obtain ⟨rfl, hrest⟩ := List.cons.inj htext
      exact .letter hc hsmall (ih hrest)
  -- the dotted letter is written as two characters, between which the text may be cut
  | dotted _ ih =>
    match cs with
    | [] => exact .nil
    | [d] =>
      obtain ⟨rfl, -⟩ := List.cons.inj htext
      exact .letter (by decide) (by decide) .nil
    | d :: d' :: rest =>
      obtain ⟨rfl, htail⟩ := List.cons.inj htext
      obtain ⟨rfl, hrest⟩ := List.cons.inj htail
      exact .dotted (ih hrest)

/-- A text in lower case begins with a letter or numeral. -/
theorem exists_head (h : Lowered cs) (hne : cs ≠ []) :
    ∃ c rest, cs = c :: rest ∧ isAlphanumeric c = true := by
  cases h with
  | nil => exact absurd rfl hne
  | letter hc _ _ => exact ⟨_, _, rfl, hc⟩
  | dotted _ => exact ⟨_, _, rfl, by decide⟩

/-- A text in lower case ends with a letter or numeral, or with a dotted `i`. -/
theorem exists_last (h : Lowered cs) (hne : cs ≠ []) :
    (∃ front c, cs = front ++ [c] ∧ isAlphanumeric c = true ∧ c.isUpper = false) ∨
      ∃ front, cs = front ++ ['i', '\u0307'] := by
  induction h with
  | nil => exact absurd rfl hne
  | @letter c cs hc hsmall rest ih =>
    by_cases hcs : cs = []
    · exact .inl ⟨[], c, by rw [hcs]; rfl, hc, hsmall⟩
    · rcases ih hcs with ⟨front, d, rfl, hd⟩ | ⟨front, rfl⟩
      · exact .inl ⟨c :: front, d, rfl, hd⟩
      · exact .inr ⟨c :: front, rfl⟩
  | @dotted cs rest ih =>
    by_cases hcs : cs = []
    · exact .inr ⟨[], by rw [hcs]; rfl⟩
    · rcases ih hcs with ⟨front, d, rfl, hd⟩ | ⟨front, rfl⟩
      · exact .inl ⟨'i' :: '\u0307' :: front, d, rfl, hd⟩
      · exact .inr ⟨'i' :: '\u0307' :: front, rfl⟩

/-- A text in lower case has no separators but dots. -/
theorem not_mem (h : Lowered cs) {d : Char} (hd : isAlphanumeric d = false) (hdot : d ≠ '\u0307') :
    d ∉ cs := by
  have hletter {c : Char} (hc : isAlphanumeric c = true) : d ≠ c := by
    rintro rfl
    rw [hc] at hd
    cases hd
  induction h with
  | nil => simp
  | letter hc _ _ ih => exact List.not_mem_cons_of_ne_of_not_mem (hletter hc) ih
  | dotted _ ih =>
    exact List.not_mem_cons_of_ne_of_not_mem (hletter (by decide))
      (List.not_mem_cons_of_ne_of_not_mem hdot ih)

end Lowered

/-- What a letter is lower-cased to is in lower case. -/
theorem lowered_lowerOf {c : Char} (hc : isAlphanumeric c = true) : Lowered (lowerOf c) := by
  rcases lowerOf_alphanumeric hc with ⟨d, hlower, hd⟩ | hdotted
  · rw [hlower]
    refine .letter hd ?_ .nil
    have hmem : d ∈ lowerOf c := hlower ▸ List.mem_singleton_self d
    by_cases hascii : d.val < 0x80
    · rcases lowerOf_ascii hc hmem hascii with rfl | rfl | ⟨hlow, rfl⟩
      · decide
      · decide
      · exact forall_ascii (P := fun c => c.toLower.isUpper = false) (by decide +kernel) hlow
    · -- capitals of ASCII stand before it
      cases hupper : d.isUpper with
      | false => rfl
      | true =>
        have hcapital : d.val ≥ 'A'.val ∧ d.val ≤ 'Z'.val := of_decide_eq_true hupper
        exact absurd (UInt32.lt_of_le_of_lt hcapital.2 (by decide)) hascii
  · rw [hdotted]
    exact .dotted .nil

/-- A word in lower case. -/
theorem lowered_lowerWord {w : List Char} (hw : ∀ c ∈ w, isAlphanumeric c = true) :
    Lowered (lowerWord w) := by
  induction w with
  | nil => exact .nil
  | cons c rest ih =>
    rw [List.forall_mem_cons] at hw
    rw [lowerWord.eq_def]
    split
    · exact .nil
    · exact .letter (by decide +kernel) (by decide) .nil
    · rename_i c' rest' _ heq
      obtain ⟨rfl, rfl⟩ := List.cons.inj heq
      exact (lowered_lowerOf hw.1).append (ih hw.2)

-- ---------------------------------------------------------------------------
-- The singular
-- ---------------------------------------------------------------------------

/-- A text has one of some endings if it ends in it. -/
theorem endsInOneOf_iff {s : String} {endings : List String} :
    endsInOneOf s endings = true ↔ ∃ e ∈ endings, ∃ front, s.toList = front ++ e.toList := by
  simp only [endsInOneOf, List.any_eq_true, List.isSuffixOf_iff_suffix]
  refine exists_congr fun e => and_congr_right fun _ => ?_
  exact ⟨fun ⟨front, h⟩ => ⟨front, h.symm⟩, fun ⟨front, h⟩ => ⟨front, h.symm⟩⟩

/-- What is left without an ending is what stands before it. -/
theorem dropLast_eq {s : String} {front ending : List Char} (h : s.toList = front ++ ending) :
    dropLast ending.length s = String.ofList front := by
  rw [dropLast, ← String.length_toList, h, List.length_append, Nat.add_sub_cancel, List.take_left]

/-- What becomes of a word in the singular: it stays as it is, or an ending is taken off. -/
inductive Singular (s : String) : String → Prop
  | kept (h : s ∈ uncountable ∨ s = "s" ∨ (∀ front, s.toList ≠ front ++ ['s']) ∨
      ∃ front, ∃ c ∈ ['s', 'u', 'i'], s.toList = front ++ [c, 's']) : Singular s s
  | irregular {single : String} (h : (single, s) ∈ irregular) : Singular s single
  | ies {front : List Char} (h : s.toList = front ++ ['i', 'e', 's']) :
      Singular s (String.ofList (front ++ ['y']))
  | es {front : List Char} (h : s.toList = front ++ ['e', 's']) (hne : front ≠ [])
      (hs : ∀ rest c, front = rest ++ [c, 's'] → c = 's') : Singular s (String.ofList front)
  | s {front : List Char} (h : s.toList = front ++ ['s']) (hne : front ≠ [])
      (hs : ∀ rest, front ≠ rest ++ ['s']) : Singular s (String.ofList front)

/-- The endings that have an `es` in the plural: two of `s`, or one that does not end with `s`. -/
theorem sibilant_of_mem {e : String} (he : e ∈ ["sses", "xes", "zes", "shes", "ches"]) :
    ∃ body, e.toList = body ++ ['e', 's'] ∧ body ≠ [] ∧
      (body = ['s', 's'] ∨ ∃ front c, body = front ++ [c] ∧ c ≠ 's') := by
  simp only [List.mem_cons, List.not_mem_nil, or_false] at he
  rcases he with rfl | rfl | rfl | rfl | rfl
  · exact ⟨['s', 's'], rfl, by simp, .inl rfl⟩
  · exact ⟨['x'], rfl, by simp, .inr ⟨[], 'x', rfl, by decide⟩⟩
  · exact ⟨['z'], rfl, by simp, .inr ⟨[], 'z', rfl, by decide⟩⟩
  · exact ⟨['s', 'h'], rfl, by simp, .inr ⟨['s'], 'h', rfl, by decide⟩⟩
  · exact ⟨['c', 'h'], rfl, by simp, .inr ⟨['c'], 'h', rfl, by decide⟩⟩

/-- What `singularize` makes of a word is a singular of it. -/
theorem singular_singularize (s : String) : Singular s (singularize s) := by
  unfold singularize
  split
  · rename_i hkept
    rcases Bool.or_eq_true_iff.1 hkept with hempty | huncountable
    · refine .kept (.inr (.inr (.inl fun front => ?_)))
      rw [String.isEmpty_iff.1 hempty]
      simp
    · exact .kept (.inl (by simpa using huncountable))
  · split
    · rename_i single plural hfind
      have hplural : plural = s := by simpa using List.find?_some hfind
      exact .irregular (hplural ▸ List.mem_of_find?_eq_some hfind)
    · split
      · -- `ies`
        rename_i hies
        obtain ⟨e, he, front, hfront⟩ := endsInOneOf_iff.1 (Bool.and_eq_true_iff.1 hies).1
        obtain rfl := List.mem_singleton.1 he
        have hdrop : dropLast 3 s ++ "y" = String.ofList (front ++ ['y']) := by
          rw [show 3 = "ies".toList.length from rfl, dropLast_eq hfront, String.ofList_append]
        exact hdrop ▸ .ies hfront
      · split
        · -- an ending with an `es` behind it
          rename_i hes
          obtain ⟨e, he, front, hfront⟩ := endsInOneOf_iff.1 hes
          obtain ⟨body, hbody, hne, hlast⟩ := sibilant_of_mem he
          rw [hbody, ← List.append_assoc] at hfront
          have hdrop : dropLast 2 s = String.ofList (front ++ body) := by
            rw [show 2 = ['e', 's'].length from rfl, dropLast_eq hfront]
          refine hdrop ▸ .es hfront (by simp [hne]) fun rest c hrest => ?_
          rcases hlast with rfl | ⟨more, d, rfl, hd⟩
          · exact (List.cons.inj (List.append_inj' hrest rfl).2).1.symm
          · have hlasts := congrArg List.getLast? hrest
            simp only [← List.append_assoc, List.getLast?_append, List.getLast?_cons_cons,
              List.getLast?_singleton, Option.some_or, Option.some_inj] at hlasts
            exact absurd hlasts hd
        · split
          · rename_i hkept
            obtain ⟨e, he, front, hfront⟩ := endsInOneOf_iff.1 hkept
            refine .kept (.inr (.inr (.inr ⟨front, ?_⟩)))
            simp only [List.mem_cons, List.not_mem_nil, or_false] at he
            rcases he with rfl | rfl | rfl
            · exact ⟨'s', by simp, hfront⟩
            · exact ⟨'u', by simp, hfront⟩
            · exact ⟨'i', by simp, hfront⟩
          · rename_i hkept
            split
            · -- `s`
              rename_i hs
              obtain ⟨hends, hne⟩ := Bool.and_eq_true_iff.1 hs
              obtain ⟨e, he, front, hfront⟩ := endsInOneOf_iff.1 hends
              obtain rfl := List.mem_singleton.1 he
              have hdrop : dropLast 1 s = String.ofList front := by
                rw [show 1 = "s".toList.length from rfl, dropLast_eq hfront]
              refine hdrop ▸ .s hfront ?_ ?_
              · rintro rfl
                exact absurd (String.toList_inj.1 hfront) (by simpa using hne)
              · rintro rest rfl
                refine hkept (endsInOneOf_iff.2 ⟨"ss", by simp, rest, ?_⟩)
                rw [hfront]
                simp
            · rename_i hs
              by_cases hsame : s = "s"
              · exact .kept (.inr (.inl hsame))
              · refine .kept (.inr (.inr (.inl fun front hfront => hs ?_)))
                rw [Bool.and_eq_true_iff]
                exact ⟨endsInOneOf_iff.2 ⟨"s", by simp, front, hfront⟩, by simpa using hsame⟩

namespace Singular

variable {s t : String}

/-- The singular of a word in lower case is one. -/
theorem lowered (h : Singular s t) (hs : Lowered s.toList) : Lowered t.toList := by
  cases h with
  | kept _ => exact hs
  | irregular h =>
    have hall : ∀ p ∈ Naming.irregular,
        (p.1.toList.all fun c => isAlphanumeric c && !c.isUpper) = true := by decide
    exact .of_forall fun c hc => by simpa using List.all_eq_true.1 (hall _ h) c hc
  | ies h =>
    rw [String.toList_ofList]
    exact (h ▸ hs).of_append.append (.letter (by decide) (by decide) .nil)
  | es h _ _ =>
    rw [String.toList_ofList]
    exact (h ▸ hs).of_append
  | s h _ _ =>
    rw [String.toList_ofList]
    exact (h ▸ hs).of_append

/-- A singular of a word is not empty. -/
theorem ne_nil (h : Singular s t) (hs : s.toList ≠ []) : t.toList ≠ [] := by
  cases h with
  | kept _ => exact hs
  | irregular h =>
    have hall : ∀ p ∈ Naming.irregular, p.1.toList ≠ [] := by decide
    exact hall _ h
  | ies h => simp
  | es h hne _ => simpa using hne
  | s h hne _ => simpa using hne

/-- A word in the singular that ends with an `s` ends with two of them, with `us` or with `is`,
unless it has no plural of its own. -/
theorem ends (h : Singular s t) {front : List Char} {a : Char}
    (hends : t.toList = front ++ [a, 's']) : t ∈ uncountable ∨ a ∈ ['s', 'u', 'i'] := by
  have hlast {rest : List Char} {c : Char} (hc : c ≠ 's') : rest ++ [c] ≠ front ++ [a, 's'] := by
    intro hsame
    have hlasts := congrArg List.getLast? hsame
    simp only [List.getLast?_append, List.getLast?_cons_cons, List.getLast?_singleton,
      Option.some_or, Option.some_inj] at hlasts
    exact hc hlasts
  cases h with
  | kept h =>
    -- a word that is kept is listed, is one letter, or has no such end
    rcases h with huncountable | rfl | hnone | ⟨front', c, hc, hkept⟩
    · exact .inl huncountable
    · have hlength := congrArg List.length hends
      simp at hlength
    · exact absurd (hends.trans (List.append_cons front a ['s'])) (hnone _)
    · have hpair := (List.append_inj' (hends.symm.trans hkept) rfl).2
      exact .inr ((List.cons.inj hpair).1 ▸ hc)
  | irregular h =>
    have hall : ∀ p ∈ Naming.irregular, p.1.toList.getLast? ≠ some 's' := by decide
    refine absurd ?_ (hall _ h)
    rw [hends]
    simp
  | ies h =>
    rw [String.toList_ofList] at hends
    exact absurd hends (hlast (by decide))
  | es h hne hs =>
    rw [String.toList_ofList] at hends
    exact .inr (by simp [hs front a hends])
  | s h hne hs =>
    rw [String.toList_ofList] at hends
    exact absurd (hends.trans (List.append_cons front a ['s'])) (hs _)

end Singular

-- ---------------------------------------------------------------------------
-- The last word
-- ---------------------------------------------------------------------------

/-- The words of several texts with separators between them. -/
theorem words_intercalate (texts : List String) :
    words ("_".intercalate texts) = texts.flatMap words := by
  induction texts with
  | nil => rfl
  | cons text rest ih =>
    cases rest with
    | nil => simp
    | cons next more =>
      have htext : "_".intercalate (text :: next :: more) =
          String.ofList (text.toList ++ '_' :: ("_".intercalate (next :: more)).toList) := by
        rw [String.intercalate_cons_cons, String.ofList_append, String.ofList_cons,
          String.ofList_toList, String.ofList_toList, String.append_assoc]
        rfl
      rw [htext, words_append (by decide), String.ofList_toList, String.ofList_toList, ih]
      rfl

/-- Inflecting the last word keeps what holds of all pieces and how many there are. -/
theorem inflectLast_spec {P : String → Prop} {f : String → String} (hf : ∀ s, P s → P (f s))
    {pieces : List String} (h : ∀ piece ∈ pieces, P piece) :
    (∀ piece ∈ inflectLast f pieces, P piece) ∧
      (inflectLast f pieces).length = pieces.length := by
  induction pieces with
  | nil => exact ⟨by simp [inflectLast], rfl⟩
  | cons last before ih =>
    rw [List.forall_mem_cons] at h
    obtain ⟨hbefore, hlength⟩ := ih h.2
    cases before with
    | nil => exact ⟨List.forall_mem_singleton.2 (hf last h.1), rfl⟩
    | cons next more =>
      rw [inflectLast]
      · split
        · exact ⟨List.forall_mem_cons.2 ⟨h.1, hbefore⟩, congrArg (· + 1) hlength⟩
        · exact ⟨List.forall_mem_cons.2 ⟨hf last h.1, h.2⟩, rfl⟩
      · simp

/-- The pieces of a name in snake case, one for each word. -/
theorem pieces_toSnake {name : String} (hne : words name ≠ []) :
    (splitAll (fun c => c == '_') (Casing.toSnake name).toList) = (words name).map lowerWord := by
  rw [Casing.toSnake, Casing.separated, String.toList_ofList]
  refine splitAll_intercalate (by simpa using hne) fun piece hpiece => ?_
  obtain ⟨w, hw, rfl⟩ := List.mem_map.1 hpiece
  exact (lowered_lowerWord (alphanumeric_of_mem_words hw)).not_mem (by decide) (by decide)

/-- A word is not empty in lower case. -/
theorem lowerWord_ne_nil {w : List Char} (hne : w ≠ []) (hw : ∀ c ∈ w, isAlphanumeric c = true) :
    lowerWord w ≠ [] := by
  cases w with
  | nil => exact absurd rfl hne
  | cons c rest =>
    rw [lowerWord.eq_def]
    split
    · rename_i heq
      cases heq
    · simp
    · rename_i c' rest' _ heq
      obtain ⟨rfl, rfl⟩ := List.cons.inj heq
      rcases lowerOf_alphanumeric (hw c List.mem_cons_self) with ⟨d, hlower, -⟩ | hdotted
      · simp [hlower]
      · simp [hdotted]

/-- A name is inflected at its last piece; the pieces are words in lower case. -/
theorem exists_pieces {name : String} (hne : words name ≠ []) :
    ∃ pieces : List String, pieces ≠ [] ∧
      (∀ piece ∈ pieces, Lowered piece.toList ∧ piece.toList ≠ []) ∧
      ∀ f, onLastWord f (Casing.toSnake name) = "_".intercalate (inflectLast f pieces).reverse := by
  refine ⟨(((words name).map lowerWord).map String.ofList).reverse, by simpa using hne, ?_,
    fun f => by rw [onLastWord, pieces_toSnake hne]⟩
  intro piece hpiece
  rw [List.mem_reverse, List.map_map] at hpiece
  obtain ⟨word, hword, rfl⟩ := List.mem_map.1 hpiece
  have hletters := alphanumeric_of_mem_words hword
  rw [Function.comp_apply, String.toList_ofList]
  exact ⟨lowered_lowerWord hletters, lowerWord_ne_nil ((words_spec name).2 word hword) hletters⟩

/-- Elements that all give something give no fewer than there are. -/
theorem length_le_flatMap {α β : Type} {f : α → List β} {xs : List α} (h : ∀ x ∈ xs, f x ≠ []) :
    xs.length ≤ (xs.flatMap f).length := by
  induction xs with
  | nil => simp
  | cons x rest ih =>
    rw [List.forall_mem_cons] at h
    have hx := List.length_pos_iff.2 h.1
    have hrest := ih h.2
    rw [List.flatMap_cons, List.length_append, List.length_cons]
    omega

/-- A name whose singular has one word only is one word itself, and has the singular of that. -/
theorem singular_toSnake {name : String} {w : List Char}
    (hw : words (onLastWord singularize (Casing.toSnake name)) = [w]) :
    ∃ s : String, Lowered s.toList ∧ s.toList ≠ [] ∧
      onLastWord singularize (Casing.toSnake name) = singularize s := by
  by_cases hne : words name = []
  · -- no words give no name
    have hempty : Casing.toSnake name = "" := by
      rw [Casing.toSnake, Casing.separated, hne]
      rfl
    have hnone : words (onLastWord singularize "") = [] := by decide
    rw [hempty, hnone] at hw
    cases hw
  · obtain ⟨pieces, hsome, hpieces, hlast⟩ := exists_pieces hne
    obtain ⟨hinflected, hlength⟩ := inflectLast_spec
      (fun s hs => ⟨(singular_singularize s).lowered hs.1, (singular_singularize s).ne_nil hs.2⟩)
      hpieces
    -- every piece has a word, so there is one piece
    have hwords : ∀ piece ∈ (inflectLast singularize pieces).reverse, words piece ≠ [] := by
      intro piece hpiece
      obtain ⟨hlowered, hnonempty⟩ := hinflected piece (List.mem_reverse.1 hpiece)
      obtain ⟨c, rest, hcs, hc⟩ := hlowered.exists_head hnonempty
      exact words_ne_nil (hcs ▸ List.mem_cons_self) hc
    have hcount := length_le_flatMap hwords
    rw [← words_intercalate, ← hlast, hw, List.length_reverse, hlength] at hcount
    match pieces, hsome, hcount with
    | [piece], _, _ =>
      obtain ⟨hlowered, hnonempty⟩ := hpieces piece List.mem_cons_self
      exact ⟨piece, hlowered, hnonempty, by simp [hlast, inflectLast]⟩

/-- The last letters of a word decide how it ends in lower case. -/
theorem lowerWord_append (front : List Char) {rest : List Char} (hne : rest ≠ []) :
    lowerWord (front ++ rest) = front.flatMap lowerOf ++ lowerWord rest := by
  induction front with
  | nil => rfl
  | cons c more ih =>
    rw [List.cons_append, lowerWord, ih, List.flatMap_cons, List.append_assoc]
    rintro - hnil
    exact hne (List.append_eq_nil_iff.1 hnil).2

/-- What is lowered to an `s` at the end of a word is one, if it is no capital. -/
theorem eq_s_of_lowerWord {c : Char} (hc : isAlphanumeric c = true) (hsmall : c.isUpper = false)
    (hs : 's' ∈ lowerWord [c]) : c = 's' := by
  rw [lowerWord.eq_def] at hs
  split at hs
  · simp at hs
  · simp at hs
  · rename_i c' rest _ heq
    obtain ⟨rfl, rfl⟩ := List.cons.inj heq
    rw [lowerWord, List.append_nil] at hs
    rcases lowerOf_ascii hc hs (by decide) with hi | hk | ⟨hascii, hlower⟩
    · exact absurd hi (by decide)
    · exact absurd hk (by decide)
    · exact forall_ascii (P := fun c => c.isUpper = false → 's' = c.toLower → c = 's')
        (by decide +kernel) hascii hsmall hlower

/-- In snake case, a name of several words has an underscore. -/
theorem words_of_toSnake {name : String} {front : List Char} {c : Char}
    (htext : (Casing.toSnake name).toList = front ++ [c]) (hword : '_' ∉ front ++ [c]) :
    ∃ w, words name = [w] ∧ lowerWord w = front ++ [c] := by
  rw [← htext] at hword ⊢
  rw [Casing.toSnake, Casing.separated, String.toList_ofList] at *
  match hwords : words name with
  | [] =>
    rw [hwords] at htext
    simp at htext
  | [w] => exact ⟨w, rfl, by simp⟩
  | w :: next :: more =>
    rw [hwords, List.map_cons, List.map_cons, List.intercalate_cons_cons] at hword
    simp at hword

/-- A text in lower case whose word ends with an `s` ends with it. -/
theorem Lowered.exists_concat_s {cs front : List Char} (h : Lowered cs) (hne : cs ≠ [])
    (hs : lowerWord (cs.filter isAlphanumeric) = front ++ ['s']) : ∃ rest, cs = rest ++ ['s'] := by
  rcases h.exists_last hne with ⟨rest, c, rfl, hc, hsmall⟩ | ⟨rest, rfl⟩
  · have hletter : [c].filter isAlphanumeric = [c] := by simp [hc]
    have hlast : (lowerWord [c]).getLast? = some 's' := by
      have hword : lowerWord [c] ≠ [] := lowerWord_ne_nil (by simp) (by simpa using hc)
      have hlasts := congrArg List.getLast? hs
      rw [List.filter_append, hletter, lowerWord_append _ (by simp), List.getLast?_append,
        List.getLast?_concat] at hlasts
      rwa [List.getLast?_eq_some_getLast hword, Option.some_or,
        ← List.getLast?_eq_some_getLast hword] at hlasts
    exact ⟨rest, by rw [eq_s_of_lowerWord hc hsmall (List.mem_of_getLast? hlast)]⟩
  · -- a dotted `i` is no `s`
    have hdotted : ['i', '\u0307'].filter isAlphanumeric = ['i'] ∧ lowerWord ['i'] = ['i'] := by
      decide +kernel
    rw [List.filter_append, hdotted.1, lowerWord_append _ (by simp), hdotted.2] at hs
    exact absurd (List.append_inj' hs rfl).2 (by decide)

/-- **Singular names.** A name in the singular that is one word ends with an `s` only if it ends
with two of them, with `us` or with `is`, or if it has no plural of its own. -/
theorem singular_ends {name : String} {front : List Char} {a : Char}
    (hends : (Casing.toSnake (onLastWord singularize (Casing.toSnake name))).toList =
      front ++ [a, 's']) (hword : '_' ∉ front ++ [a, 's']) :
    String.ofList (front ++ [a, 's']) ∈ uncountable ∨ a ∈ ['s', 'u', 'i'] := by
  rw [List.append_cons] at hends hword
  obtain ⟨w, hwords, hlower⟩ := words_of_toSnake hends hword
  obtain ⟨s, hlowered, hne, hsingular⟩ := singular_toSnake hwords
  have hletters := (words_spec (onLastWord singularize (Casing.toSnake name))).1
  rw [hwords, List.flatten_singleton, hsingular] at hletters
  have hspec := singular_singularize s
  generalize singularize s = t at hspec hletters
  rw [hletters] at hlower
  obtain ⟨rest, ht⟩ :=
    (hspec.lowered hlowered).exists_concat_s (hspec.ne_nil hne) hlower
  rcases List.eq_nil_or_concat rest with rfl | ⟨more, b, rfl⟩
  · -- a single `s` is too short
    have hone : lowerWord (['s'].filter isAlphanumeric) = ['s'] := by decide
    rw [ht, List.nil_append, hone] at hlower
    simpa using congrArg List.length hlower
  · rw [List.concat_eq_append, List.append_assoc, List.singleton_append] at ht
    rcases hspec.ends ht with huncountable | hb
    · have hall : ∀ u ∈ uncountable, lowerWord (u.toList.filter isAlphanumeric) = u.toList := by
        decide
      rw [hall t huncountable, ← List.append_cons] at hlower
      rw [← hlower, String.ofList_toList]
      exact .inl huncountable
    · have hall : ∀ b ∈ ['s', 'u', 'i'], [b, 's'].filter isAlphanumeric = [b, 's'] ∧
          lowerWord [b, 's'] = [b, 's'] := by
        rw [List.forall_mem_cons, List.forall_mem_cons, List.forall_mem_singleton]
        decide
      rw [ht, List.filter_append, (hall b hb).1, lowerWord_append _ (by simp), (hall b hb).2,
        ← List.append_cons] at hlower
      have hpair := (List.append_inj' hlower rfl).2
      exact .inr ((List.cons.inj hpair).1 ▸ hb)

-- ---------------------------------------------------------------------------
-- Both ends of a name
-- ---------------------------------------------------------------------------

/-- Pieces with underscores between them begin and end with a piece. -/
theorem intercalate_ends {pieces : List (List Char)}
    (h : ∀ piece ∈ pieces, piece ≠ [] ∧ '_' ∉ piece) :
    (['_'].intercalate pieces).head? ≠ some '_' ∧ (['_'].intercalate pieces).getLast? ≠ some '_' ∧
      (pieces ≠ [] → ['_'].intercalate pieces ≠ []) := by
  induction pieces with
  | nil => simp
  | cons piece rest ih =>
    rw [List.forall_mem_cons] at h
    obtain ⟨⟨hne, hpiece⟩, hrest⟩ := h
    have hhead : piece.head? ≠ some '_' := fun heq => hpiece (List.mem_of_head? heq)
    -- there is a `_` only between two pieces
    cases rest with
    | nil =>
      rw [List.intercalate_singleton]
      exact ⟨hhead, fun heq => hpiece (List.mem_of_getLast? heq), fun _ => hne⟩
    | cons next more =>
      obtain ⟨-, hlast, hsome⟩ := ih hrest
      rw [List.intercalate_cons_cons]
      refine ⟨?_, ?_, by simp⟩
      · rwa [List.append_assoc, List.head?_append_of_ne_nil _ hne]
      · rwa [List.getLast?_append_of_ne_nil _ (hsome (by simp))]

/-- A name in snake case neither begins nor ends with an underscore. -/
theorem toSnake_ends (name : String) : (Casing.toSnake name).toList.head? ≠ some '_' ∧
    (Casing.toSnake name).toList.getLast? ≠ some '_' := by
  rw [Casing.toSnake, Casing.separated, String.toList_ofList]
  have hpieces : ∀ piece ∈ (words name).map lowerWord, piece ≠ [] ∧ '_' ∉ piece := by
    intro piece hpiece
    obtain ⟨w, hw, rfl⟩ := List.mem_map.1 hpiece
    have hletters := alphanumeric_of_mem_words hw
    exact ⟨lowerWord_ne_nil ((words_spec name).2 w hw) hletters,
      (lowered_lowerWord hletters).not_mem (by decide) (by decide)⟩
  obtain ⟨hhead, hlast, -⟩ := intercalate_ends hpieces
  exact ⟨hhead, hlast⟩

/-- A name in title case has no slash. -/
theorem slash_not_mem_toPascal (name : String) : '/' ∉ (Casing.toPascal name).toList := by
  rw [Casing.toPascal, String.toList_ofList, List.mem_flatMap]
  rintro ⟨w, hw, hslash⟩
  have hletters := alphanumeric_of_mem_words hw
  cases w with
  | nil => simp [capitalWord] at hslash
  | cons c rest =>
    rw [List.forall_mem_cons] at hletters
    rw [capitalWord, List.mem_append] at hslash
    rcases hslash with hupper | hlower
    · exact slash_not_mem_upperOf hletters.1 hupper
    · exact (lowered_lowerWord hletters.2).not_mem (by decide) (by decide) hlower

end CrudGen.Naming
