import CrudGen.Entity.Build
import CrudGen.Schema.Infer
import CrudGen.Proofs.Naming.Numbered
import CrudGen.Proofs.Naming.Singular
import CrudGen.Proofs.Text.Lower
import CrudGen.Proofs.Catalog.Referential
import CrudGen.Target.BuiltIn

/-!
# Entities — columns that give one member

A field is named by the words of its column, in lower case and put together again in the casing of
the profile. Columns with the same words give one member, however the words are told apart in the
column. Without a separator between the words, what counts is which letters are written as capitals;
a numeral has no capital, so it does not show whether a word begins there.

Main results:

* `apply_eq_iff_alike` — when two columns give one member.
* `members_nodup_iff` — the members of an entity are distinct exactly if no two of its columns are
  alike, in all built-in profiles.
-/

namespace CrudGen

namespace Naming

open Text

-- ---------------------------------------------------------------------------
-- Letters in lower case
-- ---------------------------------------------------------------------------

/-- What a letter is lower-cased to is still. -/
theorem still_of_mem_lowerOf {c d : Char} (hd : d ∈ lowerOf c) : Still d := by
  by_cases hc : c = 'Σ'
  · subst hc
    have hall : ∀ d ∈ lowerOf 'Σ', Still d := by decide
    exact hall d hd
  · exact (staysFor_of_mem_lowerOf hc hd).1

/-- The letters of a word in lower case are still. -/
theorem still_of_mem_lowerWord {w : List Char} {d : Char} (hd : d ∈ lowerWord w) : Still d := by
  induction w using lowerWord.induct with
  | case1 => cases hd
  | case2 =>
    have hall : ∀ d ∈ ['ς'], Still d := by decide
    exact hall d hd
  | case3 c rest hsigma ih =>
    rw [lowerWord, List.mem_append] at hd
    · exact hd.elim still_of_mem_lowerOf ih
    · exact hsigma

/-- A word of still letters is in lower case. -/
theorem lowerWord_of_still {w : List Char} (h : ∀ c ∈ w, Still c) : lowerWord w = w := by
  induction w with
  | nil => rfl
  | cons c rest ih =>
    rw [List.forall_mem_cons] at h
    rw [lowerWord, h.1.1, ih h.2, List.singleton_append]
    rintro rfl -
    exact h.1.2 rfl

/-- The words that a member is named by. -/
def memberWords (name : String) : List (List Char) :=
  words (Casing.toSnake name)

/-- The words of a member are made of those of its column in lower case. -/
theorem exists_of_mem_memberWords {name : String} {w : List Char} (hw : w ∈ memberWords name)
    {c : Char} (hc : c ∈ w) : ∃ v ∈ words name, c ∈ lowerWord v := by
  have hletter := alphanumeric_of_mem_words hw c hc
  have hmem : c ∈ (memberWords name).flatten := List.mem_flatten.2 ⟨w, hw, hc⟩
  rw [memberWords, (words_spec _).1, Casing.toSnake, Casing.separated, String.toList_ofList] at hmem
  rcases exists_of_mem_intercalate (List.mem_filter.1 hmem).1 with hunderscore | ⟨text, htext, hc'⟩
  · obtain rfl := List.mem_singleton.1 hunderscore
    exact absurd hletter (by decide)
  · obtain ⟨v, hv, rfl⟩ := List.mem_map.1 htext
    exact ⟨v, hv, hc'⟩

/-- The words of a member are of still letters. -/
theorem still_of_mem_memberWords {name : String} {w : List Char} (hw : w ∈ memberWords name) :
    ∀ c ∈ w, Still c := fun _ hc =>
  have ⟨_, _, hmem⟩ := exists_of_mem_memberWords hw hc
  still_of_mem_lowerWord hmem

-- ---------------------------------------------------------------------------
-- Capitals
-- ---------------------------------------------------------------------------

/-- The letters of a word, the first of them marked. -/
def marked : List Char → List (Char × Bool)
  | [] => []
  | c :: rest => (c, true) :: rest.map (·, false)

/-- The letters of a member in a casing without separators, each with whether it is written as a
capital. -/
def memberLetters (casing : Casing) (name : String) : List (Char × Bool) :=
  let all := (memberWords name).flatMap marked
  if casing = .camel then all.modifyHead fun (c, _) => (c, false) else all

/-- A letter as it is written. -/
def written (x : Char × Bool) : List Char :=
  if x.2 then upperOf x.1 else [x.1]

/-- The first letter of a word is written big. -/
theorem flatMap_written_marked {w : List Char} (h : ∀ c ∈ w, Still c) :
    (marked w).flatMap written = capitalWord w := by
  cases w with
  | nil => rfl
  | cons c rest =>
    rw [List.forall_mem_cons] at h
    rw [marked, capitalWord, List.flatMap_cons, List.flatMap_map, lowerWord_of_still h.2]
    simp [written]

/-- In a casing without separators, a member is spelled by its letters. -/
theorem toList_apply_toSnake {casing : Casing} (h : casing = .camel ∨ casing = .pascal)
    (name : String) :
    (casing.apply (Casing.toSnake name)).toList = (memberLetters casing name).flatMap written := by
  have hstill := fun w hw => @still_of_mem_memberWords name w hw
  have hwords (ws : List (List Char)) (hws : ∀ w ∈ ws, ∀ c ∈ w, Still c) :
      (ws.flatMap marked).flatMap written = ws.flatMap capitalWord := by
    rw [List.flatMap_assoc]
    exact List.flatMap_congr fun w hw => flatMap_written_marked (hws w hw)
  rw [toList_apply (by rintro rfl; simp at h), ← memberWords, memberLetters]
  rcases h with rfl | rfl
  · -- the first letter is not marked
    rw [if_pos rfl]
    cases hfirst : memberWords name with
    | nil => rfl
    | cons first rest =>
      rw [hfirst, List.forall_mem_cons] at hstill
      obtain ⟨c, more, rfl⟩ := List.exists_cons_of_ne_nil
        ((words_spec _).2 first (hfirst ▸ List.mem_cons_self : first ∈ memberWords name))
      have hmore : (more.map (·, false)).flatMap written = more := by simp [List.flatMap_map, written]
      rw [joined, lowerWord_of_still hstill.1, ← hwords rest hstill.2]
      simp only [List.flatMap_cons, marked, List.cons_append, List.modifyHead_cons,
        List.flatMap_append, hmore]
      rfl
  · rw [if_neg (by decide), hwords _ hstill]
    rfl

-- ---------------------------------------------------------------------------
-- Columns that are alike
-- ---------------------------------------------------------------------------

/-- A letter with a capital of its own. -/
def Plain (c : Char) : Prop :=
  ∃ capital, upperOf c = [capital] ∧ lowerOf capital = [c]

/-- A name whose letters have capitals of their own. -/
def PlainName (name : String) : Prop :=
  ∀ w ∈ memberWords name, ∀ c ∈ w, Plain c

variable {casing : Casing} {a b : String} {x y : Char × Bool}

/-- Two letters that are written alike. -/
def SameLetter (x y : Char × Bool) : Prop :=
  x.1 = y.1 ∧ (x.2 = y.2 ∨ upperOf x.1 = [x.1])

instance : DecidableRel SameLetter := fun x y =>
  inferInstanceAs (Decidable (x.1 = y.1 ∧ (x.2 = y.2 ∨ upperOf x.1 = [x.1])))

/-- Letters that are the same are written the same. -/
theorem SameLetter.written (h : SameLetter x y) : written x = written y := by
  obtain ⟨c, mark⟩ := x
  obtain ⟨d, mark'⟩ := y
  obtain ⟨hletter, hmark⟩ := h
  obtain rfl : c = d := hletter
  rcases hmark with hmark | hself
  · obtain rfl : mark = mark' := hmark
    rfl
  · cases mark <;> cases mark' <;> simp [Naming.written, show upperOf c = [c] from hself]

/-- Letters that are written alike are one letter, which is its own capital if it is only one of
them that is a capital. -/
theorem written_eq_iff (hx : Still x.1 ∧ Plain x.1) (hy : Still y.1 ∧ Plain y.1) :
    written x = written y ↔ SameLetter x y := by
  -- what is a capital and a small letter at once
  have hboth {c d : Char} (hd : Still d) (hc : Plain c) (hsame : upperOf c = [d]) : c = d := by
    obtain ⟨capital, hcapital, hsmall⟩ := hc
    obtain rfl : capital = d := List.singleton_inj.1 (hcapital.symm.trans hsame)
    exact List.singleton_inj.1 (hsmall.symm.trans hd.1)
  refine ⟨fun hsame => ?_, SameLetter.written⟩
  obtain ⟨c, mark⟩ := x
  obtain ⟨d, mark'⟩ := y
  cases mark with
  | false =>
    cases mark' with
    | false => exact ⟨List.singleton_inj.1 hsame, .inl rfl⟩
    | true =>
      obtain rfl : d = c := hboth hx.1 hy.2 hsame.symm
      exact ⟨rfl, .inr hsame.symm⟩
  | true =>
    cases mark' with
    | false =>
      obtain rfl : c = d := hboth hy.1 hx.2 hsame
      exact ⟨rfl, .inr hsame⟩
    | true =>
      obtain ⟨capital, hcapital, hsmall⟩ := hx.2
      obtain ⟨capital', hcapital', hsmall'⟩ := hy.2
      obtain rfl : capital = capital' :=
        List.singleton_inj.1 (hcapital.symm.trans (hsame.trans hcapital'))
      exact ⟨List.singleton_inj.1 (hsmall.symm.trans hsmall'), .inl rfl⟩

theorem flatMap_written_of_same {xs ys : List (Char × Bool)} (h : List.Forall₂ SameLetter xs ys) :
    xs.flatMap written = ys.flatMap written := by
  induction h with
  | nil => rfl
  | cons hxy _ ih => rw [List.flatMap_cons, List.flatMap_cons, hxy.written, ih]

/-- Letters with capitals of their own are written as one character each. -/
theorem same_of_flatMap_written {xs ys : List (Char × Bool)}
    (hxs : ∀ x ∈ xs, Still x.1 ∧ Plain x.1) (hys : ∀ y ∈ ys, Still y.1 ∧ Plain y.1)
    (h : xs.flatMap written = ys.flatMap written) : List.Forall₂ SameLetter xs ys := by
  -- each letter is written as one, so the letters of both texts are in step
  have hone {x : Char × Bool} (hx : Still x.1 ∧ Plain x.1) : (written x).length = 1 := by
    obtain ⟨capital, hcapital, -⟩ := hx.2
    rw [written]
    split
    · rw [hcapital, List.length_singleton]
    · rfl
  induction xs generalizing ys with
  | nil =>
    cases ys with
    | nil => exact .nil
    | cons y ys =>
      have hlength := congrArg List.length h
      rw [List.flatMap_nil, List.flatMap_cons, List.length_append,
        hone (hys y List.mem_cons_self), List.length_nil] at hlength
      omega
  | cons x xs ih =>
    rw [List.forall_mem_cons] at hxs
    cases ys with
    | nil =>
      have hlength := congrArg List.length h
      rw [List.flatMap_nil, List.flatMap_cons, List.length_append, hone hxs.1,
        List.length_nil] at hlength
      omega
    | cons y ys =>
      rw [List.forall_mem_cons] at hys
      rw [List.flatMap_cons, List.flatMap_cons] at h
      obtain ⟨hfirst, hrest⟩ := List.append_inj h ((hone hxs.1).trans (hone hys.1).symm)
      exact .cons ((written_eq_iff hxs.1 hys.1).1 hfirst) (ih hxs.2 hys.2 hrest)

/-- Whether two columns give a member the same words; or, where no separator stands between the
words, the same letters, of which those that differ from their capitals are capitals in both or in
neither. -/
def Alike (casing : Casing) (a b : String) : Prop :=
  match casing with
  | .camel | .pascal => List.Forall₂ SameLetter (memberLetters casing a) (memberLetters casing b)
  | _ => memberWords a = memberWords b

instance (casing : Casing) (a b : String) : Decidable (Alike casing a b) :=
  match casing with
  | .camel | .pascal => inferInstanceAs (Decidable (List.Forall₂ SameLetter _ _))
  | .snake | .kebab | .screamingSnake | .preserve =>
    inferInstanceAs (Decidable (memberWords a = memberWords b))

/-- A letter of a member is one of its words. -/
theorem exists_of_mem_memberLetters (hx : x ∈ memberLetters casing a) :
    ∃ w ∈ memberWords a, x.1 ∈ w := by
  have hmarked (x : Char × Bool) (hmem : x ∈ (memberWords a).flatMap marked) :
      ∃ w ∈ memberWords a, x.1 ∈ w := by
    obtain ⟨w, hw, hx⟩ := List.mem_flatMap.1 hmem
    refine ⟨w, hw, ?_⟩
    cases w with
    | nil => cases hx
    | cons c rest =>
      rcases List.mem_cons.1 hx with rfl | hx
      · exact List.mem_cons_self
      · obtain ⟨d, hd, rfl⟩ := List.mem_map.1 hx
        exact List.mem_cons_of_mem _ hd
  rw [memberLetters] at hx
  -- the letters are those of the words, the first of all perhaps written small
  split at hx
  · generalize hall : (memberWords a).flatMap marked = all at hx
    cases all with
    | nil => cases hx
    | cons first rest =>
      rw [List.modifyHead_cons] at hx
      rcases List.mem_cons.1 hx with rfl | hx
      · exact hmarked first (hall ▸ List.mem_cons_self)
      · exact hmarked x (hall ▸ List.mem_cons_of_mem _ hx)
  · exact hmarked x hx

/-- The words of a member in snake case stand between its underscores. -/
theorem memberWords_eq (name : String) : memberWords name =
    (splitAll (fun c => c == '_') (Casing.toSnake (Casing.toSnake name)).toList).filter
      fun w => !w.isEmpty := by
  by_cases hne : words (Casing.toSnake name) = []
  · rw [Casing.toSnake, Casing.separated, memberWords, hne]
    rfl
  · have hself : (words (Casing.toSnake name)).map lowerWord = words (Casing.toSnake name) := by
      have hall : ∀ w ∈ words (Casing.toSnake name), lowerWord w = id w := fun w hw =>
        lowerWord_of_still (still_of_mem_memberWords hw)
      rw [List.map_congr_left hall, List.map_id]
    rw [pieces_toSnake hne, hself, List.filter_eq_self.2]
    · rfl
    · simpa using (words_spec (Casing.toSnake name)).2

/-- Names with the same words are the same in snake case. -/
theorem toSnake_of_words {name name' : String} (h : words name = words name') :
    Casing.toSnake name = Casing.toSnake name' := by
  rw [Casing.toSnake, Casing.toSnake, Casing.separated, Casing.separated, h]

/-- **Members.** Columns that are alike give one member, and in a casing that keeps the words apart
or of letters with capitals of their own only those. -/
theorem apply_eq_iff_alike (hcasing : casing ∈ [.snake, .camel, .pascal]) :
    (Alike casing a b →
      casing.apply (Casing.toSnake a) = casing.apply (Casing.toSnake b)) ∧
    (casing = .snake ∨ PlainName a ∧ PlainName b →
      casing.apply (Casing.toSnake a) = casing.apply (Casing.toSnake b) → Alike casing a b) := by
  -- snake case keeps the words apart, the other two show them by capitals only
  by_cases hsnake : casing = .snake
  · subst hsnake
    have hsame : Alike .snake a b ↔ memberWords a = memberWords b := Iff.rfl
    rw [hsame, Casing.apply, Casing.apply]
    exact ⟨toSnake_of_words, fun _ h => by rw [memberWords_eq, memberWords_eq, h]⟩
  · have hjoined : casing = .camel ∨ casing = .pascal := by
      simpa [hsnake] using hcasing
    have hsame : Alike casing a b ↔
        List.Forall₂ SameLetter (memberLetters casing a) (memberLetters casing b) := by
      rcases hjoined with rfl | rfl <;> rfl
    have hplain {name : String} (h : PlainName name) :
        ∀ x ∈ memberLetters casing name, Still x.1 ∧ Plain x.1 := by
      intro x hx
      obtain ⟨w, hw, hmem⟩ := exists_of_mem_memberLetters hx
      exact ⟨still_of_mem_memberWords hw x.1 hmem, h w hw x.1 hmem⟩
    rw [hsame, ← String.toList_inj, toList_apply_toSnake hjoined, toList_apply_toSnake hjoined]
    refine ⟨flatMap_written_of_same, fun hplains => ?_⟩
    obtain ⟨ha, hb⟩ := hplains.resolve_left hsnake
    exact same_of_flatMap_written (hplain ha) (hplain hb)

-- ---------------------------------------------------------------------------
-- Names in ASCII
-- ---------------------------------------------------------------------------

/-- A letter of a word in ASCII comes from one letter of it. -/
theorem exists_of_mem_lowerWord {w : List Char} (h : ∀ c ∈ w, c.val < 0x80) {d : Char}
    (hd : d ∈ lowerWord w) : ∃ c ∈ w, d = c.toLower := by
  induction w using lowerWord.induct with
  | case1 => cases hd
  | case2 => exact absurd (h 'Σ' List.mem_cons_self) (by decide)
  | case3 c rest hsigma ih =>
    rw [List.forall_mem_cons] at h
    rw [lowerWord, lowerOf, if_pos h.1, List.mem_append, List.mem_singleton] at hd
    · rcases hd with rfl | hd
      · exact ⟨c, List.mem_cons_self, rfl⟩
      · obtain ⟨c', hc', hlower⟩ := ih h.2 hd
        exact ⟨c', List.mem_cons_of_mem _ hc', hlower⟩
    · exact hsigma

/-- The letters of a name in ASCII have capitals of their own. -/
theorem plainName_of_ascii {name : String} (h : ∀ c ∈ name.toList, c.val < 0x80) :
    PlainName name := by
  intro w hw d hd
  obtain ⟨v, hv, hmem⟩ := exists_of_mem_memberWords hw hd
  have hv' : ∀ c ∈ v, c.val < 0x80 := fun c hc => by
    have hletters : c ∈ (words name).flatten := List.mem_flatten.2 ⟨v, hv, hc⟩
    rw [(words_spec name).1] at hletters
    exact h c (List.mem_filter.1 hletters).1
  obtain ⟨c, hc, rfl⟩ := exists_of_mem_lowerWord hv' hmem
  have hall := forall_ascii (P := fun c => upperOf c.toLower = [c.toLower.toUpper] ∧
    lowerOf c.toLower.toUpper = [c.toLower]) (by decide) (hv' c hc)
  exact ⟨c.toLower.toUpper, hall⟩

end Naming

-- ---------------------------------------------------------------------------
-- Fields
-- ---------------------------------------------------------------------------

open Naming

/-- Every built-in profile names fields in snake, camel or pascal case, and in the singular. -/
theorem casing_field {p : Profile} (hp : p ∈ ProfileSet.builtIn.toList) :
    p.casing .field ∈ [.snake, .camel, .pascal] ∧ p.plural.contains .field = false := by
  revert p
  decide

/-- **Fields.** In every built-in profile, columns that are alike give one member; the members of an
entity are distinct exactly if no two of its columns are alike. -/
theorem members_nodup_iff {p : Profile} (hp : p ∈ ProfileSet.builtIn.toList) (s : Schema)
    (names : NameTable) (t : Table) :
    (∀ c ∈ t.columns, ∀ d ∈ t.columns, Alike (p.casing .field) c.name d.name →
      (Field.ofColumn p t c).name = (Field.ofColumn p t d).name) ∧
    (p.casing .field = .snake ∨ (∀ c ∈ t.columns, PlainName c.name) →
      (((Entity.build s p names t).fields.map (·.name)).Nodup ↔
        t.columns.Pairwise fun c d => ¬ Alike (p.casing .field) c.name d.name)) := by
  obtain ⟨hcasing, hsingle⟩ := casing_field hp
  have hname (name : String) :
      p.mapName name .field = (p.casing .field).apply (Casing.toSnake name) := by
    simp only [Profile.mapName, hsingle]
    rfl
  -- alike names have one member in any case; the converse asks for plain names
  refine ⟨fun c _ d _ halike => ?_, fun hplain => ?_⟩
  · rw [Field.ofColumn, Field.ofColumn, hname, hname]
    exact (apply_eq_iff_alike hcasing).1 halike
  · have hfields : (Entity.build s p names t).fields.map (·.name) =
        t.columns.map fun c => p.mapName c.name .field := List.map_map
    rw [hfields, List.Nodup, List.pairwise_map]
    refine List.Pairwise.iff_of_mem fun {c d} hc hd => not_congr ?_
    rw [hname, hname]
    exact ⟨(apply_eq_iff_alike hcasing).2 (hplain.imp_right fun h => ⟨h c hc, h d hd⟩),
      (apply_eq_iff_alike hcasing).1⟩

/-- A numeral shows whether a word begins with it in snake case only. -/
theorem members_nodup_of_numerals :
    let catalog := (Extraction.ofScript "CREATE TABLE t (a1 INT, a_1 INT)" .generic).catalog
    let s := Schema.infer catalog
    let members (p : Profile) (t : Table) : List String :=
      (Entity.build s p (.assign s p) t).fields.map (·.name)
    BuiltIn.axum ∈ ProfileSet.builtIn.toList ∧ BuiltIn.express ∈ ProfileSet.builtIn.toList ∧
      ∃ t ∈ catalog.tables, (members BuiltIn.axum t).Nodup ∧ ¬ (members BuiltIn.express t).Nodup := by
  intro catalog s members
  let column (name : String) : Column := { name, declaredType := "INT", dataType := .integer }
  let t : Table := { name := "t", columns := [column "a1", column "a_1"] }
  have htables : catalog.tables = [t] := by
    change (Extraction.ofScript "CREATE TABLE t (a1 INT, a_1 INT)" .generic).catalog.tables = [t]
    rw [Extraction.ofScript_of_toList String.toList_ofList]
    decide +kernel
  have haxum : BuiltIn.axum ∈ ProfileSet.builtIn.toList := by decide
  have hexpress : BuiltIn.express ∈ ProfileSet.builtIn.toList := by decide
  have hplain : ∀ c ∈ t.columns, PlainName c.name := by
    have hascii : ∀ c ∈ t.columns, ∀ d ∈ c.name.toList, d.val < 0x80 := by decide
    exact fun c hc => plainName_of_ascii (hascii c hc)
  refine ⟨haxum, hexpress, t, htables ▸ List.mem_singleton_self t, ?_, ?_⟩
  · rw [(members_nodup_iff haxum s _ t).2 (.inl rfl)]
    decide
  · rw [(members_nodup_iff hexpress s _ t).2 (.inr hplain)]
    decide

/-- Two columns of a script that give one member in every built-in profile. -/
theorem members_clash :
    ∃ t ∈ (Extraction.ofScript "CREATE TABLE t (a_b INT, aB INT)" .generic).catalog.tables,
      ∀ p ∈ ProfileSet.builtIn.toList, ∀ (s : Schema) (names : NameTable),
        ¬ ((Entity.build s p names t).fields.map (·.name)).Nodup := by
  let column (name : String) : Column := { name, declaredType := "INT", dataType := .integer }
  let t : Table := { name := "t", columns := [column "a_b", column "aB"] }
  have htables : (Extraction.ofScript "CREATE TABLE t (a_b INT, aB INT)" .generic).catalog.tables =
      [t] := by
    rw [Extraction.ofScript_of_toList String.toList_ofList]
    decide +kernel
  have hsame : ∀ p ∈ ProfileSet.builtIn.toList,
      p.mapName "a_b" .field = p.mapName "aB" .field := by decide
  refine ⟨t, htables ▸ List.mem_singleton_self t, fun p hp s names hnodup => ?_⟩
  have hnames : (Entity.build s p names t).fields.map (·.name) =
      [p.mapName "a_b" .field, p.mapName "aB" .field] := rfl
  rw [hnames, hsame p hp] at hnodup
  simp at hnodup

end CrudGen
