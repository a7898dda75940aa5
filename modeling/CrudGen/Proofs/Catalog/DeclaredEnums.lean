import CrudGen.Proofs.Catalog.Enumerations
import CrudGen.Proofs.Sql.BuiltIn
import CrudGen.Proofs.Target.Fallback

/-!
# Catalogs — columns whose type is an enumeration by name

The name of a type is read in lower case, in every script that has cases, with single blanks and
without the words that say a sign. A built-in type of that name comes first. What no type is built in
for is looked up among the enumerations, which have their names as they were declared; only the case
of ASCII letters does not count there. `FindsEnum` is what a name has to satisfy to come through.

Main results:

* `Sql.Parser.writtenType_named` — a name, parts before it and array suffixes are read as `namedType`.
* `findsEnum_of_plain` — ASCII names without blanks come through unless they are built in or a sign.
* `declaredEnums_found_iff` — a column declared with the name of an accepted enumeration has it as its
  innermost type exactly if the name comes through.
* `declaredEnums_missed` — a name that does not.
-/

namespace CrudGen

open Text (foldAscii sameName toLower)
open Sql (Dialect Statement Token TypeMeaning builtInTypes isSignWord)
open Sql.Parser (WrittenType arrayOf Declares front)

-- ---------------------------------------------------------------------------
-- Reading a name as a type
-- ---------------------------------------------------------------------------

namespace Sql.Parser

variable {rest : List Token}

/-- A name with array suffixes as a written type. -/
def namedType (n : String) (k : Nat) : WrittenType where
  words := [Text.toLower n]
  text := n ++ String.join (List.replicate k "[]")
  arrays := k

/-- Tokens that name a type `n`, with a schema or without one. -/
inductive TypeNamed : List Token → String → Prop
  | bare {t : Token} {n : String} (ht : t = .ident n ∨ t = .serial n) : TypeNamed [t] n
  | qualified {t : Token} {ts : List Token} {m n : String} (ht : t = .ident m ∨ t = .serial m)
      (h : DottedName ts n) : TypeNamed (t :: .dot :: ts) n

/-- A dot and a name are one more part of a type. -/
theorem typePart_dot {t : Token} {m : String} (n : String) (ht : nameOf? t = some m)
    (ts : List Token) : typePart n (.dot :: t :: ts) = .ok (.yield m, ts) := by
  change (name "type name" >>= fun m => pure (.yield m) : Parser (ForInStep String)) (t :: ts) = _
  rw [bind_of_ok (name_eq_ok ht)]
  rfl

/-- A type has no more parts where there is no dot. -/
theorem typePart_ends (n : String) {ts : List Token} (hend : front ts ≠ .dot) :
    typePart n ts = .ok (.done n, ts) := by
  have hnone : accept (· == .dot) ts = .ok (false, ts) := by
    rw [accept_eq, if_neg (by simpa using hend)]
  rw [typePart, bind_of_ok hnone]
  rfl

/-- The last part of a name with dots is the one that is kept. -/
theorem comes_typeParts {ts : List Token} {n : String} (h : DottedName ts n) (first : String)
    (rest : List Token) : Comes typePart first (.dot :: (ts ++ rest)) n rest := by
  have hlt {t : Token} (left : List Token) : left.length < (Token.dot :: t :: left).length :=
    Nat.lt_add_of_pos_right (by decide : 0 < 2)
  induction h generalizing first with
  | last ht => exact .round (typePart_dot first ht rest) (hlt rest) (.refl _ _)
  | part ht _ ih => exact .round (typePart_dot first ht _) (hlt _) (ih _)

/-- Parts of a type are read until there is no dot. -/
theorem iterate_typePart {ts : List Token} {first n : String} {rest : List Token}
    (h : Comes typePart first ts n rest) (hend : front rest ≠ .dot) :
    iterate typePart first ts = .ok (n, rest) := by
  rw [h.iterate_eq, iterate, typePart_ends n hend]

/-- **Types.** A name with array suffixes is read as that, with a schema before it or without. -/
theorem writtenType_named (column : String) {named : List Token} {n : String}
    (h : TypeNamed named n) (k : Nat) (hstops : StopsType rest) :
    writtenType column (named ++ (List.replicate k Token.brackets ++ rest)) =
      .ok (namedType n k, rest) := by
  -- no dot goes on with the name, whether brackets follow or not
  have hdot : front (List.replicate k Token.brackets ++ rest) ≠ .dot := by
    cases k with
    | zero => exact hstops.dot
    | succ k => exact Token.noConfusion
  have hsuffixes : iterate typeSuffix { words := [Text.toLower n], text := n }
      (List.replicate k Token.brackets ++ rest) = .ok (namedType n k, rest) := by
    rw [(comes_brackets _ k).iterate_eq, iterate,
      typeSuffix_ends _ hstops.lparen hstops.layer hstops.word]
    simp [namedType]
  have hread {first : String} {ts : List Token}
      (hcomes : Comes typePart first ts n (List.replicate k Token.brackets ++ rest)) :
      typeFrom first ts = .ok (namedType n k, rest) := by
    rw [typeFrom, bind_of_ok (iterate_typePart hcomes hdot), hsuffixes]
  cases h with
  -- the first word may be a plain word or one of a type that counts
  | bare ht => obtain rfl | rfl := ht <;> exact hread (.refl _ _)
  | qualified ht hdotted => obtain rfl | rfl := ht <;> exact hread (comes_typeParts hdotted _ _)

end Sql.Parser

-- ---------------------------------------------------------------------------
-- What a name means
-- ---------------------------------------------------------------------------

/-- A type that is built in does not become an enumeration. -/
theorem SqlType.withEnums_of_isBuiltIn {type : SqlType} (h : type.isBuiltIn = true)
    (names : List String) (found : String) : (type.withEnums names).innermost ≠ .enum found := by
  cases type <;> simp_all [isBuiltIn, withEnums, innermost]

/-- A name that stands for an enumeration of that name: no type is built in for it, and nothing but
the case of ASCII letters is lost when it is read. -/
def FindsEnum (n : String) : Prop :=
  (TypeMeaning.base (toLower n) ∉ builtInTypes.map fun words => " ".intercalate words) ∧
    sameName (TypeMeaning.base (toLower n)) n = true

instance (n : String) : Decidable (FindsEnum n) :=
  inferInstanceAs (Decidable (_ ∧ _))

/-- Where an enumeration is listed under the name `n`, a type that is written `n` becomes one of that
name exactly if `n` stands for one. -/
theorem enum_found_iff {names : List String} {e n : String} (he : e ∈ names)
    (hsame : sameName n e = true) (dialect : Dialect) :
    (∃ found ∈ names, sameName found e = true ∧
      ((TypeMeaning.ofName (toLower n) [] dialect).dataType.withEnums names).innermost =
        .enum found) ↔ FindsEnum n := by
  -- a name that is listed is built in and never looked up; any other one is
  obtain ⟨hlisted, hbuilt⟩ | ⟨hlisted, hunknown⟩ := Sql.ofName_cases (toLower n) [] dialect
  · constructor
    · rintro ⟨found, -, -, hfound⟩
      exact absurd hfound (SqlType.withEnums_of_isBuiltIn hbuilt names found)
    · exact fun h => absurd hlisted h.1
  · rw [hunknown, SqlType.withEnums]
    constructor
    · rintro ⟨found, -, hfound, htype⟩
      refine ⟨hlisted, ?_⟩
      split at htype
      · rename_i first hfirst
        cases htype
        have hbase := List.find?_some hfirst
        simp only [sameName, beq_iff_eq] at *
        exact hbase.symm.trans (hfound.trans hsame.symm)
      · cases htype
    · rintro ⟨-, hbase⟩
      have hlooked : sameName e (TypeMeaning.base (toLower n)) = true := by
        simp only [sameName, beq_iff_eq] at *
        exact (hbase.trans hsame).symm
      have hsome : (names.find? (sameName · (TypeMeaning.base (toLower n)))).isSome :=
        List.find?_isSome.2 ⟨e, he, hlooked⟩
      obtain ⟨found, hfound⟩ := Option.isSome_iff_exists.1 hsome
      refine ⟨found, List.mem_of_find?_eq_some hfound, ?_, by rw [hfound]; rfl⟩
      have hfoundBase := List.find?_some hfound
      exact sameName_trans hfoundBase (sameName_trans hbase hsame)

-- ---------------------------------------------------------------------------
-- Plain names
-- ---------------------------------------------------------------------------

namespace Text

/-- Characters that are not blank are one word. -/
theorem wordsOf_of_not_blank {cs : List Char} (hne : cs ≠ []) (h : ∀ c ∈ cs, isBlank c = false) :
    wordsOf cs = [cs] := by
  induction cs with
  | nil => exact absurd rfl hne
  | cons c rest ih =>
    have hc := h c List.mem_cons_self
    cases rest with
    | nil => simp [wordsOf, hc]
    | cons d more =>
      have hd := h d (by simp)
      rw [wordsOf, ih (List.cons_ne_nil _ _) fun c' hc' => h c' (List.mem_cons_of_mem _ hc')]
      simp [hc, hd]

/-- A name is the same as itself in lower case. -/
theorem sameName_foldAscii (n : String) : sameName (foldAscii n) n = true := by
  refine sameName_of_map_eq ?_
  rw [foldAscii, String.toList_map, List.map_map]
  exact List.map_congr_left fun c _ => apply_toLower (f := Char.toLower) (by decide) c

/-- What holds of the characters in lower case. -/
theorem forall_mem_foldAscii {P : Char → Prop} {n : String} (h : ∀ c ∈ n.toList, P c.toLower) :
    ∀ c ∈ (foldAscii n).toList, P c := by
  rw [foldAscii, String.toList_map]
  exact List.forall_mem_map.2 h

/-- Names in ASCII are lower-cased letter by letter. -/
theorem toLower_of_ascii {n : String} (h : ∀ c ∈ n.toList, c.val < 0x80) : toLower n = foldAscii n := by
  rw [← toLower_of_sameName (sameName_foldAscii n)]
  exact toLower_of_still (forall_mem_foldAscii fun c hc => still_ascii (h c hc))

end Text

/-- A name of one word is its own base, unless the word is a sign. -/
theorem base_of_not_blank {n : String} (hblank : ∀ c ∈ n.toList, Text.isBlank c = false)
    (hsign : isSignWord n = false) : TypeMeaning.base n = n := by
  by_cases hempty : n.toList = []
  · obtain rfl : n = "" := String.toList_inj.1 hempty
    decide +kernel
  · rw [TypeMeaning.base, Text.words, Text.wordsOf_of_not_blank hempty hblank, List.map_singleton,
      String.ofList_toList, List.filter_singleton, hsign]
    exact String.intercalate_singleton

/-- **Plain names.** An ASCII name without blanks stands for its enumeration, unless it says a sign
or a type is built in for it. -/
theorem findsEnum_of_plain {n : String} (hascii : ∀ c ∈ n.toList, c.val < 0x80)
    (hblank : ∀ c ∈ n.toList, Text.isBlank c = false) (hsign : isSignWord (foldAscii n) = false)
    (hlisted : foldAscii n ∉ builtInTypes.map fun words => " ".intercalate words) : FindsEnum n := by
  have hfolded : ∀ c ∈ (foldAscii n).toList, Text.isBlank c = false :=
    Text.forall_mem_foldAscii fun c hc =>
      (Text.apply_toLower (f := Text.isBlank) (by decide) c).trans (hblank c hc)
  rw [FindsEnum, Text.toLower_of_ascii hascii, base_of_not_blank hfolded hsign]
  exact ⟨hlisted, Text.sameName_foldAscii n⟩

-- ---------------------------------------------------------------------------
-- Columns of scripts
-- ---------------------------------------------------------------------------

/-- A type that is named is what the name means in lower case, in as many arrays as it has brackets.
-/
theorem dataType_named (n : String) (k : Nat) (dialect : Dialect) (table column : String) :
    ((Sql.Parser.namedType n k).meaning dialect table column).dataType =
      arrayOf k (TypeMeaning.ofName (toLower n) [] dialect).dataType := by
  have hnone : (Sql.Parser.namedType n k).inlineEnum? table column = none := by
    rw [WrittenType.inlineEnum?, if_neg]
    simp [Sql.Parser.namedType]
  rw [WrittenType.meaning, hnone]
  exact congrArg (fun name => arrayOf k (TypeMeaning.ofName name [] dialect).dataType)
    String.intercalate_singleton

/-- **Declared enumerations.** A name of a type, behind a schema or not, with any number of array
suffixes, is read as that. In whatever dialect, every column of a script stems from an accepted
statement. Where the type written there has the name of an enumeration that is accepted anywhere in
the script, the column has an enumeration of the catalog of that name as its innermost type exactly if
the name stands for one. -/
theorem declaredEnums_found_iff (script : String) (dialect : Dialect) :
    let x := Extraction.ofScript script dialect
    let accepted := acceptedStatements (dialect.resolve script) (originsOf script)
    (∀ (named rest : List Token) (n column : String) (k : Nat), Sql.Parser.TypeNamed named n →
      Sql.Parser.StopsType rest →
        Sql.Parser.writtenType column (named ++ (List.replicate k Token.brackets ++ rest)) =
          .ok (Sql.Parser.namedType n k, rest)) ∧
      ∀ t ∈ x.catalog.tables, ∀ c ∈ t.columns, ∃ table w,
        StemsFrom (dialect.resolve script) (originsOf script) accepted t.name c.name table w ∧
          c.declaredType = w.text ∧
          ∀ (e : EnumType) (n : String) (k : Nat), Statement.createEnum e ∈ accepted →
            w = Sql.Parser.namedType n k → sameName n e.name = true →
              ((∃ found ∈ x.catalog.enums, sameName found.name e.name = true ∧
                c.dataType.innermost = .enum found.name) ↔ FindsEnum n) := by
  intro x accepted
  refine ⟨fun named rest n column k hnamed hstops =>
    Sql.Parser.writtenType_named column hnamed k hstops, fun t ht c hc => ?_⟩
  obtain ⟨hfirst, hstems⟩ := stems_ofStatements (dialect.resolve script) (originsOf script)
  obtain ⟨table, w, hw, hwritten, htype⟩ := hstems t ht c hc
  refine ⟨table, w, hw, hwritten, fun e n k hcreated hnamed hsame => ?_⟩
  -- the catalog lists an enumeration of the name, wherever it is declared
  have haccepted : e ∈ accepted.flatMap (·.allEnums) :=
    List.mem_flatMap.2 ⟨_, hcreated, List.mem_singleton_self e⟩
  obtain ⟨first, hlisted, hname, -⟩ := Catalog.ListsFirst.mem hfirst haccepted
  have hnames : e.name ∈ x.catalog.enums.map (·.name) := List.mem_map.2 ⟨first, hlisted, hname⟩
  rw [hnamed, dataType_named, withEnums_arrayOf] at htype
  rw [← enum_found_iff hnames hsame (dialect.resolve script), htype, SqlType.innermost_arrayOf]
  constructor
  · rintro ⟨found, hmem, hfound⟩
    exact ⟨found.name, List.mem_map_of_mem hmem, hfound⟩
  · rintro ⟨_, hmem, hfound⟩
    obtain ⟨found, hin, rfl⟩ := List.mem_map.1 hmem
    exact ⟨found, hin, hfound⟩

-- the enumeration is declared behind the table that has an array of it
private def laterDeclared : String :=
  "CREATE TABLE t (c public.Mood[]); CREATE TYPE Mood AS ENUM ('ok')"

private def laterColumn : List Token :=
  [.ident "c", .ident "public", .dot, .ident "Mood", .brackets, .rparen]

private def laterStatements : List (Origin × List Token) :=
  [({ number := 1, excerpt := "CREATE TABLE t (c public.Mood[])" },
      .keyword .create :: .keyword .table :: .ident "t" :: .lparen :: laterColumn),
    ({ number := 2, excerpt := "CREATE TYPE Mood AS ENUM ('ok')" },
      [.keyword .create, .ident "TYPE", .ident "Mood", .ident "AS", .ident "ENUM", .lparen,
        .str "ok", .rparen])]

private theorem originsOf_laterDeclared : originsOf laterDeclared = laterStatements := by
  rw [laterDeclared, originsOf_of_toList String.toList_ofList]
  decide +kernel

/-- What is read of the statements, step by step. -/
private theorem read_laterStatements :
    let created : List Token := .ident "t" :: .lparen :: laterColumn
    let declared : List Token := [.ident "TYPE", .ident "Mood", .ident "AS", .ident "ENUM", .lparen,
      .str "ok", .rparen]
    (Sql.Parser.tableElement .generic "t" {} laterColumn).map (·.2) = .ok [.rparen] ∧
      Sql.Parser.modifiers (.keyword .table :: created) = .ok ((), .keyword .table :: created) ∧
      Sql.Parser.qualifiedName "table name" created = .ok ("t", .lparen :: laterColumn) ∧
      Sql.Parser.modifiers declared = .ok ((), declared) ∧
      Statement.createEnum { name := "Mood", labels := ["ok"] } ∈
        acceptedStatements .generic laterStatements ∧
      ∃ t ∈ (Extraction.ofStatements .generic laterStatements).catalog.tables,
        ∃ c ∈ t.columns, c.declaredType = "Mood[]" := by
  decide +kernel

/-- The only column of the table has the type that is declared behind it. -/
private theorem type_of_laterColumn {d : Sql.Parser.TableDraft} {rest : List Token} {n : String}
    {w : WrittenType}
    (helements : Sql.Parser.Comes (Sql.Parser.tableElement .generic "t") {} laterColumn d rest)
    (hbegins : Sql.Parser.beginsColumn rest = true) (hcolumn : Sql.Parser.Announces rest n w) :
    w = Sql.Parser.namedType "Mood" 1 := by
  let type : List Token := [.ident "public", .dot, .ident "Mood", .brackets, .rparen]
  cases helements with
  | refl =>
    have hname : Sql.Parser.name "column name" laterColumn = .ok ("c", type) := rfl
    have htype : Sql.Parser.writtenType "c" type =
        .ok (Sql.Parser.namedType "Mood" 1, [.rparen]) :=
      Sql.Parser.writtenType_named "c" (.qualified (.inl rfl) (.last rfl)) 1
        ⟨nofun, nofun, nofun, rfl⟩
    obtain ⟨_, _, hname', htype'⟩ := hcolumn
    cases hname.symm.trans hname'
    cases htype.symm.trans htype'
    rfl
  | round hround _ hmore =>
    -- no column begins behind this one
    have hleft := read_laterStatements.1
    rw [hround] at hleft
    cases hleft
    cases hmore with
    | refl => exact absurd hbegins (by decide)
    | round hround _ _ => cases hround

private theorem type_of_laterDeclared {t n table : String} {w : WrittenType}
    (h : StemsFrom .generic laterStatements (acceptedStatements .generic laterStatements)
      t n table w) : w = Sql.Parser.namedType "Mood" 1 := by
  obtain ⟨tokens, hmem, -, -, -, hdeclares⟩ := h.declared
  obtain ⟨-, hmodifiers, htable, hmodifiers', -⟩ := read_laterStatements
  rw [laterStatements, List.map_cons, List.map_singleton, List.mem_cons, List.mem_singleton] at hmem
  obtain rfl | rfl := hmem
  · cases hdeclares with | element hread hif htable' helements hbegins hcolumn => ?_
    cases hmodifiers.symm.trans hread
    cases hif
    cases htable.symm.trans htable'
    exact type_of_laterColumn helements hbegins hcolumn
  · cases hdeclares with | element hread => cases hmodifiers'.symm.trans hread

/-- An array of an enumeration that is declared later, with a schema before its name. -/
theorem declaredEnums_found_iff_of_array :
    FindsEnum "Mood" ∧
      Statement.createEnum { name := "Mood", labels := ["ok"] } ∈
        acceptedStatements .generic (originsOf laterDeclared) ∧
      Sql.Parser.writtenType "c" [.ident "public", .dot, .ident "Mood", .brackets, .rparen] =
        .ok (Sql.Parser.namedType "Mood" 1, [.rparen]) ∧
      ∃ t ∈ (Extraction.ofScript laterDeclared .generic).catalog.tables, ∃ c ∈ t.columns,
        c.declaredType = "Mood[]" ∧
        ∃ found ∈ (Extraction.ofScript laterDeclared .generic).catalog.enums,
          sameName found.name "Mood" = true ∧ c.dataType.innermost = .enum found.name := by
  have hfinds : FindsEnum "Mood" :=
    findsEnum_of_plain (by decide) (by decide) (by decide +kernel) (by decide +kernel)
  have hnamed : Sql.Parser.TypeNamed [.ident "public", .dot, .ident "Mood"] "Mood" :=
    .qualified (.inl rfl) (.last rfl)
  have hstops : Sql.Parser.StopsType [.rparen] := ⟨nofun, nofun, nofun, rfl⟩
  obtain ⟨-, -, -, -, hcreated, hcolumn⟩ := read_laterStatements
  obtain ⟨hread, hcolumns⟩ := declaredEnums_found_iff laterDeclared .generic
  have hresolve : Dialect.generic.resolve laterDeclared = .generic := rfl
  rw [Extraction.ofScript, hresolve, originsOf_laterDeclared] at hcolumns ⊢
  obtain ⟨t, ht, c, hc, htext⟩ := hcolumn
  obtain ⟨table, w, hstems, -, hfound⟩ := hcolumns t ht c hc
  exact ⟨hfinds, hcreated, hread _ _ _ "c" 1 hnamed hstops, t, ht, c, hc, htext,
    (hfound _ "Mood" 1 hcreated (type_of_laterDeclared hstems) (sameName_self "Mood")).2 hfinds⟩

/-- A name that is not the same in lower case: its letters are lowered as Unicode has it, and names are
compared as ASCII has it. -/
theorem declaredEnums_missed :
    ∃ script dialect, ∃ t ∈ (Extraction.ofScript script dialect).catalog.tables, ∃ c ∈ t.columns,
      ∃ e w, StemsFrom (dialect.resolve script) (originsOf script)
          (acceptedStatements (dialect.resolve script) (originsOf script)) t.name c.name t.name w ∧
        c.declaredType = w.text ∧
        Statement.createEnum e ∈ acceptedStatements (dialect.resolve script) (originsOf script) ∧
        w = Sql.Parser.namedType e.name 0 ∧
        ∀ found ∈ (Extraction.ofScript script dialect).catalog.enums,
          c.dataType.innermost ≠ .enum found.name := by
  let script := "CREATE TYPE Étape AS ENUM ('a'); CREATE TABLE t (c Étape)"
  let e : EnumType := { name := "Étape", labels := ["a"] }
  let c : Column := { name := "c", declaredType := "Étape", dataType := .unknown "étape" }
  let t : Table := { name := "t", columns := [c] }
  let w := Sql.Parser.namedType "Étape" 0
  let s : Statement := .createTable
    { table := t, foreignKeys := [], inlineEnums := [], ifNotExists := false }
  let type : List Token := [.ident "Étape", .rparen]
  let table : List Token := .ident "t" :: .lparen :: .ident "c" :: type
  let statements : List (Origin × List Token) :=
    [({ number := 1, excerpt := "CREATE TYPE Étape AS ENUM ('a')" },
        [.keyword .create, .ident "TYPE", .ident "Étape", .ident "AS", .ident "ENUM", .lparen,
          .str "a", .rparen]),
      ({ number := 2, excerpt := "CREATE TABLE t (c Étape)" },
        .keyword .create :: .keyword .table :: table)]
  -- what the script is read as, and what is accepted of it
  have horigins : originsOf script = statements := by
    simp only [script]
    rw [originsOf_of_toList String.toList_ofList]
    decide +kernel
  have haccepted : acceptedStatements .generic statements = [.createEnum e, s] := by
    decide +kernel
  have ht : (Extraction.ofStatements .generic statements).catalog.tables = [t] := by
    decide +kernel
  have hdeclares : Declares .generic (.keyword .create :: .keyword .table :: table) "t" "c" w := by
    have hmodifiers : Sql.Parser.modifiers (.keyword .table :: table) =
        .ok ((), .keyword .table :: table) := by decide +kernel
    have hif : Sql.Parser.skipIfExists table = .ok (false, table) := rfl
    have htable : Sql.Parser.qualifiedName "table name" table =
        .ok ("t", .lparen :: .ident "c" :: type) := by decide +kernel
    have htype : Sql.Parser.writtenType "c" type = .ok (w, [.rparen]) :=
      Sql.Parser.writtenType_named "c" (.bare (.inl rfl)) 0 ⟨nofun, nofun, nofun, rfl⟩
    exact .element hmodifiers hif htable (.refl _ _) (by decide +kernel) ⟨type, _, rfl, htype⟩
  have hstems : StemsFrom .generic statements [.createEnum e, s] "t" "c" "t" w :=
    ⟨sameName_self _, ⟨_, List.mem_cons_of_mem _ List.mem_cons_self, s, by simp,
      by decide +kernel, hdeclares⟩, nofun⟩
  -- the name is looked up as `étape`, which is not the name `Étape` in ASCII
  have hresolve : Dialect.generic.resolve script = .generic := rfl
  refine ⟨script, .generic, ?_⟩
  rw [Extraction.ofScript, hresolve, horigins, ht, haccepted]
  exact ⟨t, List.mem_singleton_self t, c, List.mem_singleton_self c, e, w, hstems,
    (String.append_empty).symm, List.mem_cons_self, rfl, fun found _ => SqlType.noConfusion⟩

end CrudGen
