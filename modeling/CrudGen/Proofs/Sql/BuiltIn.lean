import CrudGen.Proofs.Sql.Chunks
import CrudGen.Proofs.Sql.WrittenClauses

/-!
# Types — the built-in names

`builtInTypes` lists the names that mean something in every dialect, each as its words. A
`TypeSpelling` is one of them with its ASCII letters in any case.

Main results:

* `ofName_cases` — the names in the list stand for built-in types, and no others have a meaning.
* `enum_of_unknown` — nor does `enum`, the key of a scalar type.
* `TypeSpelling.tokensOf_text`, `TypeSpelling.writtenType` — a spelling is read as the type of that
  name.
-/

namespace CrudGen

/-- A type that is not looked up by its name, and no array of others. -/
def SqlType.isBuiltIn : SqlType → Bool
  | .unknown _ | .enum _ | .array _ => false
  | _ => true

/-- A built-in type is no array. -/
theorem SqlType.innermost_of_isBuiltIn {type : SqlType} (h : type.isBuiltIn = true) :
    type.innermost = type := by
  cases type <;> first | rfl | cases h

namespace Sql

open Lexer Text

-- ---------------------------------------------------------------------------
-- Names
-- ---------------------------------------------------------------------------

/-- The names of the built-in scalar types, in lower case. -/
def builtInTypes : List (List String) :=
  [["serial"], ["serial4"], ["bigserial"], ["serial8"], ["smallserial"], ["serial2"], ["tinyint"],
    ["smallint"], ["int2"], ["year"], ["int"], ["integer"], ["int4"], ["mediumint"], ["bigint"],
    ["int8"], ["decimal"], ["numeric"], ["dec"], ["money"], ["smallmoney"], ["real"], ["float4"],
    ["float"], ["double"], ["double", "precision"], ["float8"], ["boolean"], ["bool"], ["bit"],
    ["char"], ["character"], ["nchar"], ["bpchar"], ["varchar"], ["character", "varying"],
    ["nvarchar"], ["varchar2"], ["citext"], ["text"], ["tinytext"], ["mediumtext"], ["longtext"],
    ["ntext"], ["clob"], ["date"], ["time"], ["time", "without", "time", "zone"], ["timetz"],
    ["time", "with", "time", "zone"], ["timestamp"], ["timestamp", "without", "time", "zone"],
    ["datetime"], ["datetime2"], ["smalldatetime"], ["timestamptz"],
    ["timestamp", "with", "time", "zone"], ["datetimeoffset"], ["interval"], ["uuid"],
    ["uniqueidentifier"], ["json"], ["jsonb"], ["bytea"], ["blob"], ["tinyblob"], ["mediumblob"],
    ["longblob"], ["binary"], ["varbinary"], ["image"]]

/-- A type name without the words that do not change its meaning. -/
def TypeMeaning.base (name : String) : String :=
  " ".intercalate ((Text.words name).filter fun w => !isSignWord w)

/-- A name in the list stands for a built-in type, and no other name has a meaning. -/
theorem ofName_cases (name : String) (args : List Nat) (dialect : Dialect) :
    TypeMeaning.base name ∈ builtInTypes.map (fun words => " ".intercalate words) ∧
        (TypeMeaning.ofName name args dialect).dataType.isBuiltIn = true ∨
      TypeMeaning.base name ∉ builtInTypes.map (fun words => " ".intercalate words) ∧
        (TypeMeaning.ofName name args dialect).dataType = .unknown (TypeMeaning.base name) := by
  have hbase : " ".intercalate ((Text.words name).filter fun w => !isSignWord w) =
    TypeMeaning.base name := rfl
  simp only [builtInTypes, List.map_cons, List.map_nil, String.intercalate_singleton,
    String.intercalate_cons_cons, String.reduceAppend]
  unfold TypeMeaning.ofName
  dsimp only
  rw [hbase]
  generalize TypeMeaning.base name = base
  split
  -- the last case is that of a name that is none of those that are asked for
  case h_72 =>
    refine .inr ⟨?_, rfl⟩
    simp only [List.mem_cons, List.not_mem_nil, or_false, not_or]
    and_intros
    all_goals assumption
  all_goals refine .inl ⟨by repeat first | exact .head _ | apply List.Mem.tail, ?_⟩
  -- a `float` asks for its size, some others for the dialect
  all_goals first | rfl | split
  all_goals first | rfl | split
  all_goals rfl

/-- Of the keys of scalar types only `enum` is no type name. -/
theorem enum_of_unknown {name key : String} {args : List Nat} {dialect : Dialect}
    (h : (TypeMeaning.ofName name args dialect).dataType.innermost = .unknown key)
    (hkey : key ∈ SqlType.scalarKeys) : key = "enum" := by
  obtain ⟨-, hbuilt⟩ | ⟨hlisted, hunknown⟩ := ofName_cases name args dialect
  · rw [SqlType.innermost_of_isBuiltIn hbuilt] at h
    rw [h] at hbuilt
    cases hbuilt
  · rw [hunknown] at h
    cases h
    have hkeys : ∀ key ∈ SqlType.scalarKeys, key = "enum" ∨ [key] ∈ builtInTypes := by
      simp [SqlType.scalarKeys, builtInTypes]
    refine (hkeys _ hkey).resolve_right fun hin => hlisted ?_
    exact List.mem_map.2 ⟨_, hin, String.intercalate_singleton⟩

/-- A small letter or a digit of ASCII. -/
def isSmall (c : Char) : Bool :=
  c.isLower || c.isDigit

/-- A small letter is one of ASCII. -/
theorem ascii_of_isSmall {c : Char} (h : isSmall c = true) : c.val < 0x80 := by
  rcases Bool.or_eq_true_iff.1 h with hlower | hdigit
  · have hle : c.val ≤ 'z'.val := of_decide_eq_true (Bool.and_eq_true_iff.1 hlower).2
    exact UInt32.lt_of_le_of_lt hle (by decide)
  · have hle : c.val ≤ '9'.val := of_decide_eq_true (Bool.and_eq_true_iff.1 hdigit).2
    exact UInt32.lt_of_le_of_lt hle (by decide)

/-- A small letter is part of words, and is left alone when it is lower-cased. -/
theorem still_of_isSmall {c : Char} (h : isSmall c = true) :
    isWordChar c = true ∧ c.toLower = c ∧ Still c :=
  forall_ascii (P := fun c => isSmall c = true → isWordChar c = true ∧ c.toLower = c ∧ Still c)
    (by decide +kernel) (ascii_of_isSmall h) h

/-- The words of built-in types are written with small letters. -/
theorem small_of_listed : ∀ name ∈ builtInTypes, ∀ word ∈ name,
    (word.toList.head?.any startsWord && word.toList.all isSmall) = true := by
  decide +kernel

theorem chars_of_listed {name : List String} (hname : name ∈ builtInTypes) {word : String}
    (hword : word ∈ name) :
    (word.toList.head?.any startsWord && word.toList.all isWordChar) = true := by
  obtain ⟨hfirst, hsmall⟩ := Bool.and_eq_true_iff.1 (small_of_listed name hname word hword)
  refine Bool.and_eq_true_iff.2 ⟨hfirst, List.all_eq_true.2 fun c hc => ?_⟩
  exact (still_of_isSmall (List.all_eq_true.1 hsmall c hc)).1

theorem lower_of_listed {name : List String} (hname : name ∈ builtInTypes) {word : String}
    (hword : word ∈ name) : foldAscii word = word ∧ toLower word = word := by
  obtain ⟨-, hsmall⟩ := Bool.and_eq_true_iff.1 (small_of_listed name hname word hword)
  have hstill c hc := still_of_isSmall (List.all_eq_true.1 hsmall c hc)
  refine ⟨?_, toLower_of_still fun c hc => (hstill c hc).2.2⟩
  rw [← String.toList_inj, foldAscii, String.toList_map]
  exact (List.map_congr_left fun c hc => (hstill c hc).2.1).trans (List.map_id _)

/-- Every built-in type has a word. -/
theorem some_of_listed : ∀ name ∈ builtInTypes, name ≠ [] := by
  decide

/-- None of the words is a keyword, and those that stand for a counter are known by their upper
case. -/
theorem keyword_of_listed : ∀ name ∈ builtInTypes, ∀ word ∈ name,
    Keyword.ofUpper? (toUpper word) = none ∧
      (Token.serialNames.contains (toUpper word) = true → toLower (toUpper word) = word) := by
  decide +kernel

/-- The words behind the first one go on with a type. -/
theorem continues_of_listed : ∀ name ∈ builtInTypes, ∀ word ∈ name.tail,
    Parser.typeContinuations.contains word = true ∧
      Token.serialNames.contains (toUpper word) = false := by
  decide +kernel

-- ---------------------------------------------------------------------------
-- Spellings
-- ---------------------------------------------------------------------------

/-- A built-in type name as it is written, with ASCII letters in any case. -/
structure TypeSpelling where
  words : List String
  listed : words.map foldAscii ∈ builtInTypes

namespace TypeSpelling

def text (x : TypeSpelling) : String :=
  " ".intercalate x.words

/-- The name that is spelled. -/
def name (x : TypeSpelling) : List String :=
  x.words.map foldAscii

variable (x : TypeSpelling)

/-- A word of a type begins as words do. -/
theorem chars {word : String} (hword : word ∈ x.words) :
    ∃ c tail, word.toList = c :: tail ∧ startsWord c = true ∧ ∀ d ∈ tail, isWordChar d = true := by
  have hlisted := chars_of_listed x.listed (List.mem_map_of_mem hword)
  rw [foldAscii, String.toList_map] at hlisted
  cases hchars : word.toList with
  | nil =>
    rw [hchars] at hlisted
    cases hlisted
  | cons c tail =>
    rw [hchars] at hlisted
    simp only [List.map_cons, List.head?_cons, Option.any_some, List.all_cons, List.all_map,
      Bool.and_eq_true, List.all_eq_true, Function.comp_apply] at hlisted
    refine ⟨c, tail, rfl, ?_, fun d hd => ?_⟩
    · rw [← apply_toLower (f := startsWord) (by decide +kernel)]
      exact hlisted.1
    · rw [← apply_toLower (f := isWordChar) (by decide +kernel)]
      exact hlisted.2.2 d hd

/-- **Words.** The words of a type are its tokens, up to what goes on with no word. -/
theorem tokensOf_text {rest : List Char} (hrest : ∀ d ∈ rest.head?, isWordChar d = false) :
    tokensOf (x.text.toList ++ rest) = x.words.map ofWord ++ tokensOf rest := by
  have hall (words : List String) (hwords : ∀ word ∈ words, word ∈ x.words) :
      tokensOf ((" ".intercalate words).toList ++ rest) = words.map ofWord ++ tokensOf rest := by
    induction words with
    | nil => rfl
    | cons word more ih =>
      obtain ⟨c, tail, hchars, hc, htail⟩ := x.chars (hwords word List.mem_cons_self)
      have hword {left : List Char} (hleft : ∀ d ∈ left.head?, isWordChar d = false) :
          tokensOf (word.toList ++ left) = ofWord word :: tokensOf left := by
        rw [hchars, List.cons_append, tokensOf_word hc htail hleft, ← hchars, String.ofList_toList]
      have hmore := ih fun w hw => hwords w (List.mem_cons_of_mem _ hw)
      cases more with
      | nil =>
        rw [String.intercalate_singleton, hword hrest]
        rfl
      -- behind a word stands the blank, which ends it and is no token
      | cons next others =>
        have hblank : ∀ d ∈ (' ' :: ((" ".intercalate (next :: others)).toList ++ rest)).head?,
            isWordChar d = false := by
          rintro _ ⟨⟩
          decide +kernel
        have htext : (" ".intercalate (word :: next :: others)).toList ++ rest =
            word.toList ++ ' ' :: ((" ".intercalate (next :: others)).toList ++ rest) := by
          rw [String.intercalate_cons_cons]
          simp
        rw [htext, hword hblank, tokensOf_blank, hmore]
        rfl
  exact hall x.words fun _ h => h

/-- A word is the same as itself in lower case. -/
theorem sameName_fold {word : String} (hword : word ∈ x.words) :
    sameName word (foldAscii word) = true := by
  have hlower := (lower_of_listed x.listed (List.mem_map_of_mem hword)).1
  rw [sameName, hlower, beq_self_eq_true]

/-- No name of a type is a keyword. -/
theorem ofWord_eq {word : String} (hword : word ∈ x.words) : ofWord word =
    if Token.serialNames.contains (toUpper word) then .serial (toUpper word) else .ident word := by
  have hkeyword := (keyword_of_listed _ x.listed _ (List.mem_map_of_mem hword)).1
  rw [← toUpper_of_sameName (x.sameName_fold hword)] at hkeyword
  rw [ofWord, hkeyword]

/-- A word of a type is lowered to a word of its name. -/
theorem toLower_text {word : String} (hword : word ∈ x.words) :
    toLower (ofWord word).text = foldAscii word := by
  have hword' : foldAscii word ∈ x.words.map foldAscii := List.mem_map_of_mem hword
  have hsame := x.sameName_fold hword
  rw [x.ofWord_eq hword]
  split
  · rename_i hserial
    rw [toUpper_of_sameName hsame] at hserial ⊢
    exact (keyword_of_listed _ x.listed _ hword').2 hserial
  · exact (toLower_of_sameName hsame).trans (lower_of_listed x.listed hword').2

/-- The type that a spelling is. -/
def written : Parser.WrittenType :=
  match x.words.map fun word => (ofWord word).text with
  | [] => default
  | first :: more => Parser.wordsType first more

/-- **Types.** A spelling is read as the type of its name. -/
theorem writtenType (column : String) :
    Parser.writtenType column (x.words.map ofWord) = .ok (x.written, []) := by
  have hsome := some_of_listed _ x.listed
  have hcontinues := continues_of_listed _ x.listed
  have htoken := @x.ofWord_eq
  have htext := @x.toLower_text
  unfold written
  cases hwords : x.words with
  | nil =>
    rw [hwords] at hsome
    exact absurd rfl hsome
  | cons first more =>
    rw [hwords] at hcontinues htoken htext
    -- the words behind the first continue the type, so none is read as a serial
    have hmore (word : String) (hword : word ∈ more) : ofWord word = .ident word ∧
        Parser.typeContinuations.contains (toLower word) = true := by
      have hlower := htext (List.mem_cons_of_mem first hword)
      have hident := htoken (List.mem_cons_of_mem first hword)
      obtain ⟨hcontinued, hserial⟩ := hcontinues _ (List.mem_map_of_mem hword)
      rw [← toUpper_of_sameName (x.sameName_fold (hwords ▸ List.mem_cons_of_mem first hword))]
        at hserial
      rw [hserial, if_neg Bool.false_ne_true] at hident
      rw [hident] at hlower
      exact ⟨hident, hlower.symm ▸ hcontinued⟩
    have htokens : more.map ofWord =
        (more.map fun word => (ofWord word).text).map Token.ident := by
      rw [List.map_map]
      refine List.map_congr_left fun word hword => ?_
      rw [Function.comp_apply, (hmore word hword).1]
      rfl
    -- the first word may be one
    have hfirst : ofWord first = .ident (ofWord first).text ∨
        ofWord first = .serial (ofWord first).text := by
      rw [htoken List.mem_cons_self]
      split
      · exact .inr rfl
      · exact .inl rfl
    rw [List.map_cons, List.map_cons, htokens]
    refine Parser.writtenType_words column hfirst fun word hword => ?_
    obtain ⟨word', hword', rfl⟩ := List.mem_map.1 hword
    rw [(hmore word' hword').1]
    exact (hmore word' hword').2

/-- The type is read as it is written, word by word. -/
theorem written_eq : ∃ first more, x.written = Parser.wordsType first more ∧
    (first :: more).map toLower = x.name := by
  have hname : (x.words.map fun word => (ofWord word).text).map toLower = x.name := by
    rw [List.map_map]
    exact List.map_congr_left fun word hword => x.toLower_text hword
  unfold written
  cases hwords : x.words with
  | nil => exact absurd (by simp [hwords]) (some_of_listed _ x.listed)
  | cons first more =>
    rw [hwords] at hname
    exact ⟨_, _, rfl, hname⟩

/-- A built-in type has no labels. -/
theorem inlineEnum?_written (table column : String) : x.written.inlineEnum? table column = none := by
  obtain ⟨first, more, hwritten, -⟩ := x.written_eq
  rw [hwritten]
  exact if_neg (by simp [Parser.wordsType])

/-- What is written means what its name means. -/
theorem meaning_written (dialect : Dialect) (table column : String) :
    x.written.meaning dialect table column =
      TypeMeaning.ofName (" ".intercalate x.name) [] dialect := by
  have henum := x.inlineEnum?_written table column
  obtain ⟨first, more, hwritten, hname⟩ := x.written_eq
  rw [Parser.WrittenType.meaning, henum, hwritten, ← hname]
  rfl

end TypeSpelling

end Sql

end CrudGen
