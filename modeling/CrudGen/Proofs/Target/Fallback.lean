import CrudGen.Proofs.Catalog.Enumerations
import CrudGen.Proofs.Data.Dict
import CrudGen.Proofs.Data.Except
import CrudGen.Proofs.Entity.Build
import CrudGen.Proofs.Sql.BuiltIn
import CrudGen.Target.BuiltIn
import CrudGen.Target.Config

/-!
# Types of a target — the fallback

A type is looked up by the key of its innermost element. The profiles of a configuration account for
every scalar type, so that a scalar type takes the fallback exactly if the target declines it. The
key of a type that is not known is its name, and this name may be a row of the type table: a row
beyond the scalar types that the configuration has, or `enum`, which no type name means.

Main results:

* `total_of_ofToml` — the profiles of a configuration account for every scalar type.
* `spell_cases` — how a type is spelled.
* `scalar_of_unknown` — the only scalar key that an unknown type of a script has is `enum`.
* `fallback_exact` — which types take the fallback, and which warnings there are.
* `spelled_enum` — an unknown type that does not.
-/

namespace CrudGen

open Sql (Dialect)
open Sql.Parser (WrittenType arrayOf)

-- ---------------------------------------------------------------------------
-- Profiles that account for every scalar type
-- ---------------------------------------------------------------------------

/-- Every scalar type has a row in the table, or is declined. -/
def Conventions.Total (c : Conventions) : Prop :=
  ∀ key ∈ SqlType.scalarKeys, c.types.contains key = true ∨ key ∈ c.unsupported

instance (c : Conventions) : Decidable c.Total :=
  inferInstanceAs (Decidable (∀ key ∈ SqlType.scalarKeys, _ ∨ _))

/-- A language that is accepted maps every scalar type. -/
theorem total_of_checkLanguage {name : String} {c : Conventions}
    (h : Config.checkLanguage name c = .ok ()) : c.Total := by
  unfold Config.checkLanguage at h
  cases hmissing : SqlType.scalarKeys.find? fun k =>
      !c.types.contains k && !c.unsupported.contains k with
  | some key =>
    rw [hmissing] at h
    split at h <;> cases h
  | none =>
    intro key hkey
    simpa [or_iff_not_imp_left] using List.find?_eq_none.1 hmissing key hkey

/-- The profile of a target spells types as its language does. -/
theorem total_of_profile {l : LanguageConfig} {t : TargetConfig} {p : Profile}
    (h : Config.profile l t = .ok p) (hl : l.conventions.Total) : p.toConventions.Total := by
  obtain ⟨naming, -, h⟩ := ok_of_bind h
  obtain ⟨plural, -, h⟩ := ok_of_bind h
  cases h
  exact hl

/-- A profile of the set with one more is that one or was there. -/
theorem ProfileSet.of_mem_insert {s : ProfileSet} {p q : Profile} (h : q ∈ (s.insert p).toList) :
    q = p ∨ q ∈ s.toList := by
  obtain ⟨entry, hentry, rfl⟩ := List.mem_map.1 h
  exact (Dict.of_mem_insert hentry).imp (congrArg Prod.snd) fun hold => List.mem_map_of_mem hold

theorem total_of_addTarget {languages : Dict String LanguageConfig} {s s' : ProfileSet}
    {t : TargetConfig} (hlanguages : ∀ l ∈ languages, l.2.conventions.Total)
    (hs : ∀ p ∈ s.toList, p.toConventions.Total) (h : Config.addTarget languages s t = .ok s') :
    ∀ p ∈ s'.toList, p.toConventions.Total := by
  unfold Config.addTarget at h
  -- the target's language has to be there, and its conventions are total
  cases hlanguage : languages.get? t.key.language with
  | none =>
    rw [hlanguage] at h
    cases h
  | some l =>
    rw [hlanguage] at h
    dsimp only at h
    split at h
    · cases h
    · obtain ⟨added, hadded, h⟩ := ok_of_bind h
      cases h
      have hl := hlanguages _ (Dict.mem_of_get? hlanguage)
      rintro p hp
      rcases ProfileSet.of_mem_insert hp with rfl | hp
      · exact total_of_profile hadded hl
      · exact hs p hp

/-- The profiles of a configuration account for every scalar type. -/
theorem total_of_ofToml {document : String} {s : ProfileSet}
    (h : ProfileSet.ofToml document = .ok s) : ∀ p ∈ s.toList, p.toConventions.Total := by
  unfold ProfileSet.ofToml at h
  split at h
  · rename_i languages targets _
    obtain ⟨u, hchecked, h⟩ := ok_of_bind h
    have hlanguages : ∀ l ∈ languages, l.2.conventions.Total := fun l hl =>
      total_of_checkLanguage (checked_of_forIn hchecked l hl)
    exact foldlM_ok (I := fun s : ProfileSet => ∀ p ∈ s.toList, p.toConventions.Total)
      (fun t _ s s' hs ht => total_of_addTarget hlanguages hs ht)
      (fun _ hp => absurd hp List.not_mem_nil) h
  · cases h

-- ---------------------------------------------------------------------------
-- Types that are looked up
-- ---------------------------------------------------------------------------

/-- Whether a type is not known. -/
def SqlType.isUnknown : SqlType → Bool
  | .unknown _ => true
  | _ => false

/-- A type that is unknown is called by its key. -/
theorem SqlType.eq_unknown {type : SqlType} (h : type.isUnknown = true) :
    type = .unknown type.key := by
  cases type with
  | unknown name => rfl
  | _ => cases h

/-- The innermost type is no array. -/
theorem SqlType.innermost_ne_array (type element : SqlType) : type.innermost ≠ .array element := by
  induction type with
  | array inner ih => exact ih
  | _ => exact SqlType.noConfusion

/-- A type that is known has a scalar key. -/
theorem SqlType.mem_scalarKeys {type : SqlType} (h : type.innermost.isUnknown = false) :
    type.innermost.key ∈ scalarKeys := by
  induction type with
  | array inner ih => exact ih h
  | unknown => cases h
  | _ => simp [innermost, key, scalarKeys]

namespace Conventions

/-- A target declines a type that is not known, and one whose row it does not support. -/
def Declines (c : Conventions) (type : SqlType) : Prop :=
  type.innermost.isUnknown = true ∨ type.innermost.key ∈ c.unsupported

/-- A target misreads a type that is not known but whose name is a row that it supports. -/
def Misreads (c : Conventions) (type : SqlType) : Prop :=
  type.innermost.isUnknown = true ∧ c.types.contains type.innermost.key = true ∧
    type.innermost.key ∉ c.unsupported

instance (c : Conventions) : DecidablePred c.Declines :=
  fun _ => inferInstanceAs (Decidable (_ ∨ _))

instance (c : Conventions) : DecidablePred c.Misreads :=
  fun _ => inferInstanceAs (Decidable (_ ∧ _ ∧ _))

variable {c : Conventions} {type : SqlType}

/-- Arrays leave what their element is spelled with. -/
theorem spell_innermost (c : Conventions) (type : SqlType) :
    (c.spell type).2 = (c.spell type.innermost).2 := by
  induction type with
  | array inner ih => exact ih
  | _ => rfl

/-- A type that is no array is spelled as its row says, or as the fallback. -/
theorem spell_scalar (h : ∀ element, type ≠ .array element) :
    c.spell type =
      match c.types.get? type.key with
      | some spelling =>
        if c.unsupported.contains type.key then (c.fallback, c.fallback, true)
        else (spelling, spelling, false)
      | none => (c.fallback, c.fallback, true) := by
  cases type with
  | array inner => exact absurd rfl (h inner)
  | _ => rfl

/-- A type is spelled as the row of its innermost element, which is supported, or with the
fallback. -/
theorem spell_cases (c : Conventions) (type : SqlType) :
    (∃ spelling, c.types.get? type.innermost.key = some spelling ∧
        type.innermost.key ∉ c.unsupported ∧ (c.spell type).2 = (spelling, false)) ∨
      (c.types.contains type.innermost.key = false ∨ type.innermost.key ∈ c.unsupported) ∧
        (c.spell type).2 = (c.fallback, true) := by
  rw [spell_innermost, spell_scalar type.innermost_ne_array, Dict.contains]
  cases c.types.get? type.innermost.key with
  | none => exact .inr ⟨.inl rfl, rfl⟩
  | some spelling =>
    by_cases hdeclined : type.innermost.key ∈ c.unsupported
    · exact .inr ⟨.inr hdeclined, by simp [hdeclined]⟩
    · exact .inl ⟨spelling, rfl, hdeclined, by simp [hdeclined]⟩

/-- The innermost element is spelled with the fallback, or as its row. -/
theorem spell_base (c : Conventions) (type : SqlType) :
    ((c.spell type).2.2 = true → (c.spell type).2.1 = c.fallback) ∧
      ((c.spell type).2.2 = false →
        c.types.get? type.innermost.key = some (c.spell type).2.1) := by
  obtain ⟨spelling, hrow, -, hspell⟩ | ⟨-, hspell⟩ := c.spell_cases type
  · rw [hspell]
    exact ⟨nofun, fun _ => hrow⟩
  · rw [hspell]
    exact ⟨fun _ => rfl, nofun⟩

/-- A target that accounts for every scalar type takes the fallback for what it declines, except for
what it misreads. -/
theorem Total.fallback_iff (h : c.Total) (type : SqlType) :
    (c.spell type).2.2 = true ↔ c.Declines type ∧ ¬ c.Misreads type := by
  -- either there is a row that may be used, or there is none and the type is the fallback
  obtain ⟨spelling, hrow, hsupported, hspell⟩ | ⟨hnone, hspell⟩ := c.spell_cases type
  · have hcontains : c.types.contains type.innermost.key = true := by
      rw [Dict.contains, hrow]
      rfl
    simp only [hspell, Bool.false_eq_true, false_iff]
    rintro ⟨hunknown | hdeclined, hread⟩
    · exact hread ⟨hunknown, hcontains, hsupported⟩
    · exact hsupported hdeclined
  · simp only [hspell, true_iff]
    constructor
    · cases hunknown : type.innermost.isUnknown with
      | true => exact .inl hunknown
      | false =>
        refine .inr ?_
        rcases h _ (SqlType.mem_scalarKeys hunknown) with hcontains | hdeclined
        · exact hnone.resolve_left (by simp [hcontains])
        · exact hdeclined
    · rintro ⟨-, hcontains, hsupported⟩
      exact hnone.elim (fun hnot => by simp [hcontains] at hnot) hsupported

end Conventions

-- ---------------------------------------------------------------------------
-- Types of scripts
-- ---------------------------------------------------------------------------

/-- Arrays have the innermost type of their elements. -/
theorem SqlType.innermost_arrayOf (k : Nat) (type : SqlType) :
    (arrayOf k type).innermost = type.innermost := by
  induction k generalizing type with
  | zero => rfl
  | succ k ih => exact ih (.array type)

/-- A type that no enumeration stands for was not known before. -/
theorem SqlType.unknown_of_withEnums {names : List String} {type : SqlType} {name : String}
    (h : (type.withEnums names).innermost = .unknown name) : type.innermost = .unknown name := by
  induction type with
  | array inner ih => exact ih h
  | unknown own =>
    rw [withEnums] at h
    split at h
    · cases h
    · exact h
  | _ => cases h

/-- The only scalar key that a type of a script can have without being known is `enum`. -/
theorem enum_of_unknown_column {script : String} {dialect : Dialect} {t : Table} {c : Column}
    {name : String} (ht : t ∈ (Extraction.ofScript script dialect).catalog.tables)
    (hc : c ∈ t.columns) (hunknown : c.dataType.innermost = .unknown name)
    (hscalar : name ∈ SqlType.scalarKeys) : name = "enum" := by
  obtain ⟨-, hstems⟩ := stems_ofStatements (dialect.resolve script) (originsOf script)
  obtain ⟨table, w, -, -, htype⟩ := hstems t ht c hc
  rw [htype] at hunknown
  have hwritten := SqlType.unknown_of_withEnums hunknown
  rw [WrittenType.meaning, SqlType.innermost_arrayOf] at hwritten
  split at hwritten
  · cases hwritten
  · exact Sql.enum_of_unknown hwritten hscalar

-- ---------------------------------------------------------------------------
-- Columns and warnings
-- ---------------------------------------------------------------------------

/-- The warning about a column whose type takes the fallback. -/
def Column.unmapped (p : Profile) (table : String) (c : Column) : UnmappedType where
  target := p.key.text
  table
  column := c.name
  sqlType := c.dataType.display
  fallback := p.fallback

/-- A column is warned about if its type is declined and not misread. -/
theorem warning?_ofColumn {p : Profile} (hp : p.toConventions.Total) (t : Table) (c : Column) :
    Field.warning? p t (.ofColumn p t c) =
      if p.Declines c.dataType ∧ ¬ p.Misreads c.dataType then some (c.unmapped p t.name)
      else none :=
  if_congr (hp.fallback_iff c.dataType) rfl rfl

/-- The warnings about an entity are those about its columns whose types take the fallback. -/
theorem warnings_of_mem {s : Schema} {p : Profile} (hp : p.toConventions.Total) {e : Entity}
    (he : e ∈ s.entityModels p) :
    e.warnings p = (e.table.columns.filter fun c =>
      p.Declines c.dataType ∧ ¬ p.Misreads c.dataType).map (·.unmapped p e.table.name) := by
  have hfields : e.fields = e.table.columns.map (Field.ofColumn p e.table) :=
    congrArg Entity.fields (build_of_mem he).2
  rw [Entity.warnings, hfields, List.filterMap_map, ← List.filterMap_eq_map, List.filterMap_filter]
  refine congrArg (List.filterMap · _) (funext fun c => ?_)
  simp only [Function.comp_apply, warning?_ofColumn hp, decide_eq_true_eq]

/-- **The fallback.** Let a profile come from a configuration, and columns from a script in any
dialect. The type of a column takes the fallback exactly if the target declines it, unless its name
is misread as a row of the type table; otherwise it is the row of its innermost element. What is
misread is `enum`, or a row that is none of a scalar type. Every table that is no junction has an
entity, and about each entity there is one warning for every column whose type takes the fallback,
in the order of the columns. -/
theorem fallback_exact {document : String} {profiles : ProfileSet} {p : Profile}
    (hdocument : ProfileSet.ofToml document = .ok profiles) (hp : p ∈ profiles.toList)
    (script : String) (dialect : Dialect) :
    let catalog := (Extraction.ofScript script dialect).catalog
    let entities := (Schema.infer catalog).entityModels p
    (∀ t ∈ catalog.tables, ∀ c ∈ t.columns,
      let type := TargetType.ofColumn p.toConventions c
      (type.fallback = true ↔ p.Declines c.dataType ∧ ¬ p.Misreads c.dataType) ∧
      (type.fallback = true → type.base = p.fallback) ∧
      (type.fallback = false → p.types.get? c.dataType.innermost.key = some type.base) ∧
      (p.Misreads c.dataType →
        c.dataType.innermost = .unknown "enum" ∨
          c.dataType.innermost.key ∉ SqlType.scalarKeys)) ∧
    (∀ t ∈ catalog.tables, t.kind = .entity → ∃ e ∈ entities, e.table = t) ∧
    ∀ e ∈ entities, e.table ∈ catalog.tables ∧
      e.warnings p = (e.table.columns.filter fun c =>
        p.Declines c.dataType ∧ ¬ p.Misreads c.dataType).map (·.unmapped p e.table.name) := by
  intro catalog entities
  have htotal := total_of_ofToml hdocument p hp
  have hreferential : catalog.Referential := referential_ofStatements _ _
  refine ⟨fun t ht c hc => ⟨htotal.fallback_iff c.dataType, (p.spell_base c.dataType).1,
      (p.spell_base c.dataType).2, fun hread => ?_⟩,
    fun t ht hkind => ⟨_, build_mem hreferential p ht hkind, rfl⟩,
    fun e he => ⟨(table_of_mem hreferential he).1, warnings_of_mem htotal he⟩⟩
  -- what is misread has an unknown type whose name is a key of the mapping
  have hunknown := SqlType.eq_unknown hread.1
  -- among those of the scalar types, only `enum` can be the name of an unknown one
  by_cases hscalar : c.dataType.innermost.key ∈ SqlType.scalarKeys
  · exact .inl (hunknown.trans
      (congrArg SqlType.unknown (enum_of_unknown_column ht hc hunknown hscalar)))
  · exact .inr hscalar

/-- A document is read by its characters. Those of a long literal are quick to get line by line
only. -/
theorem Toml.parse?_of_toList {document : String} {cs : List Char} (h : document.toList = cs) :
    Toml.parse? document = do
      let members ← Toml.lines [] [] ((Toml.dropByteOrderMark cs).length + 1)
        (Toml.dropByteOrderMark cs)
      return .table (Toml.membersToToml members) := by
  subst h
  rfl

/-- A language that spells texts and enumerations, and declines all other scalar types. -/
def toyDocument : String :=
  "\n".intercalate [
    "[languages.toy]",
    "extension = 'toy'",
    "fallback = 'Str'",
    "array = 'List<\x7b\x7d>'",
    "decimal = 'string'",
    "nullable = \x7b template = '\x7b\x7d?' \x7d",
    "naming = \x7b \x7d",
    "types = \x7b text = 'Text', enum = 'Choice' \x7d",
    "unsupported = ['smallint', 'integer', 'bigint',",
    "  'decimal', 'real', 'double', 'boolean', 'char',",
    "  'varchar', 'date', 'time', 'timestamp',",
    "  'timestamptz', 'interval', 'uuid', 'json',",
    "  'binary']",
    "[[targets]]",
    "language = 'toy'",
    "framework = 'web'"]

/-- The profile of that language. -/
def toy : Profile where
  extension := "toy"
  types := [("enum", "Choice"), ("text", "Text")]
  unsupported := ["bigint", "binary", "boolean", "char", "date", "decimal", "double", "integer",
    "interval", "json", "real", "smallint", "time", "timestamp", "timestamptz", "uuid", "varchar"]
  fallback := "Str"
  array := "List<\x7b\x7d>"
  decimal := .string
  nullable := .template "\x7b\x7d?"
  naming := []
  key := ⟨"toy", "web"⟩

/-- The document of a profile with one type that is not supported. -/
theorem ofToml_toy : ProfileSet.ofToml toyDocument = .ok (.ofProfiles [toy]) := by
  rw [ProfileSet.ofToml, Toml.parse?_of_toList ?chars]
  case chars =>
    apply toList_intercalate_of String.toList_ofList
    repeat' first | exact List.map_nil | apply map_toList_cons_of String.toList_ofList
  decide +kernel

/-- An array of a type that is not known takes the fallback and so does a type that is declined;
arrays of texts do not, nor does an enumeration without labels. -/
theorem fallback_exact_of_toy :
    let script := "CREATE TABLE t (a GEOMETRY[], b TEXT[][], c DATE, d ENUM)"
    let catalog := (Extraction.ofScript script .generic).catalog
    ProfileSet.ofToml toyDocument = .ok (.ofProfiles [toy]) ∧
      toy ∈ (ProfileSet.ofProfiles [toy]).toList ∧
      ∃ e ∈ (Schema.infer catalog).entityModels toy, e.table.name = "t" ∧ e.warnings toy =
        [{ target := "toy/web", table := "t", column := "a", sqlType := "geometry[]",
            fallback := "Str" },
          { target := "toy/web", table := "t", column := "c", sqlType := "date",
            fallback := "Str" }] := by
  intro script catalog
  let t : Table :=
    { name := "t"
      columns := [
        { name := "a", declaredType := "GEOMETRY[]", dataType := .array (.unknown "geometry") },
        { name := "b", declaredType := "TEXT[][]", dataType := .array (.array .text) },
        { name := "c", declaredType := "DATE", dataType := .date },
        { name := "d", declaredType := "ENUM", dataType := .unknown "enum" }] }
  have htoy : toy ∈ (ProfileSet.ofProfiles [toy]).toList := List.mem_singleton_self toy
  obtain ⟨-, hentity, hwarnings⟩ := fallback_exact ofToml_toy htoy script .generic
  have ht : t ∈ (Extraction.ofScript script .generic).catalog.tables := by
    rw [Extraction.ofScript_of_toList String.toList_ofList]
    decide +kernel
  obtain ⟨e, he, htable⟩ := hentity t ht (by decide +kernel)
  refine ⟨ofToml_toy, htoy, e, he, congrArg Table.name htable, ?_⟩
  rw [(hwarnings e he).2, htable]
  decide +kernel

/-- An enumeration without labels is not known; that profile and all built-in ones spell it as an
enumeration, and there is no warning. -/
theorem spelled_enum :
    let catalog := (Extraction.ofScript "CREATE TABLE t (c ENUM)" .generic).catalog
    ProfileSet.ofToml toyDocument = .ok (.ofProfiles [toy]) ∧
      ∃ t ∈ catalog.tables, ∃ c ∈ t.columns, c.dataType.innermost = .unknown "enum" ∧
        ∀ p ∈ toy :: ProfileSet.builtIn.toList,
          (TargetType.ofColumn p.toConventions c).fallback = false ∧
            ∀ e ∈ (Schema.infer catalog).entityModels p, e.warnings p = [] := by
  intro catalog
  let c : Column := { name := "c", declaredType := "ENUM", dataType := .unknown "enum" }
  let t : Table := { name := "t", columns := [c] }
  have htables : (Extraction.ofScript "CREATE TABLE t (c ENUM)" .generic).catalog.tables = [t] := by
    rw [Extraction.ofScript_of_toList String.toList_ofList]
    decide +kernel
  have hreferential : catalog.Referential := referential_ofStatements _ _
  have hspelled : ∀ p ∈ toy :: ProfileSet.builtIn.toList, p.toConventions.Total ∧
      (TargetType.ofColumn p.toConventions c).fallback = false ∧
        p.Misreads c.dataType := by decide +kernel
  refine ⟨ofToml_toy, t, htables ▸ List.mem_singleton_self t, c, List.mem_singleton_self c, rfl,
    fun p hp => ⟨(hspelled p hp).2.1, fun e he => ?_⟩⟩
  obtain ⟨htotal, -, hread⟩ := hspelled p hp
  have htable : e.table = t :=
    List.mem_singleton.1 (htables ▸ (table_of_mem hreferential he).1)
  rw [warnings_of_mem htotal he, htable]
  simp [t, hread]

end CrudGen
