import CrudGen.Proofs.Entity.Joins
import CrudGen.Proofs.Entity.Members
import CrudGen.Proofs.Server.Counterpart
import CrudGen.Proofs.Server.Reading
import CrudGen.Proofs.Target.Fallback
import CrudGen.Server.TypeScript.Nest
import CrudGen.Target.BuiltIn
import CrudGen.Target.Config

/-!
# Nest servers — the members that join columns refer to

A decorator that joins tables names the columns of one of them and the members of an entity that
they refer to. Members are named by the profile, but what a decorator refers to is put in camel case
whatever the profile says. The two come to the same for columns in ASCII where the profile writes
fields in camel case and in the singular.

Main results:

* `camel_toSnake` — in ASCII, snake case keeps the words apart that camel case is made of.
* `fieldName_of_declares` — a column is the member that the profile calls it.
* `read_entityModule` — what the decorators of an entity refer to.
* `references_in_camel_case` — where these are the members of the other entity, and where not.
-/

namespace CrudGen

open Naming Text
open Sql (Dialect)

-- ---------------------------------------------------------------------------
-- Camel case
-- ---------------------------------------------------------------------------

namespace Naming

variable {w : List Char}

/-- Whether a character is a letter or a numeral in ASCII. -/
def Basic (c : Char) : Prop :=
  isAlphanumeric c = true ∧ c.val < 0x80

/-- The letters and digits of ASCII are small when they are lower-cased, and big as they were. -/
theorem small_of_basic {c : Char} (h : Basic c) :
    Small c.toLower ∧ upperOf c.toLower = upperOf c := by
  have hall := forall_ascii (P := fun c => isAlphanumeric c = true →
    (isAlphanumeric c.toLower = true ∧ lowerOf c.toLower = [c.toLower] ∧
      isUpper c.toLower = false ∧ c.toLower ≠ 'Σ') ∧ upperOf c.toLower = upperOf c)
    (by decide +kernel) h.2 h.1
  exact ⟨⟨hall.1.1, hall.1.2.1, hall.1.2.2⟩, hall.2⟩

/-- A word in ASCII is lower-cased letter by letter. -/
theorem lowerWord_of_basic (h : ∀ c ∈ w, Basic c) : lowerWord w = w.map Char.toLower := by
  induction w using lowerWord.induct with
  | case1 => rfl
  | case2 => exact absurd (h 'Σ' List.mem_cons_self).2 (by decide)
  | case3 c rest hsigma ih =>
    rw [List.forall_mem_cons] at h
    rw [lowerWord, lowerOf, if_pos h.1.2, ih h.2, List.map_cons, List.singleton_append]
    exact hsigma

/-- A word that is lower-cased is small. -/
theorem small_of_mem_lowerWord (h : ∀ c ∈ w, Basic c) : ∀ c ∈ lowerWord w, Small c := by
  rw [lowerWord_of_basic h, List.forall_mem_map]
  exact fun c hc => (small_of_basic (h c hc)).1

/-- A word begins with the same capital if it is in lower case. -/
theorem capitalWord_lowerWord (h : ∀ c ∈ w, Basic c) : capitalWord (lowerWord w) = capitalWord w := by
  rw [lowerWord_of_basic h]
  cases w with
  | nil => rfl
  | cons c rest =>
    rw [List.forall_mem_cons] at h
    rw [List.map_cons, capitalWord, capitalWord, (small_of_basic h.1).2, ← lowerWord_of_basic h.2,
      lowerWord_of_small (small_of_mem_lowerWord h.2)]

variable {name : String}

/-- The words of a name in ASCII are letters and digits of ASCII. -/
theorem basic_of_mem_words (h : ∀ c ∈ name.toList, c.val < 0x80) (hw : w ∈ words name) :
    ∀ c ∈ w, Basic c := by
  intro c hc
  have hletters : c ∈ (words name).flatten := List.mem_flatten.2 ⟨w, hw, hc⟩
  rw [(words_spec name).1] at hletters
  exact ⟨alphanumeric_of_mem_words hw c hc, h c (List.mem_filter.1 hletters).1⟩

/-- Snake case keeps the words of a name in ASCII apart. -/
theorem words_toSnake (h : ∀ c ∈ name.toList, c.val < 0x80) :
    words (Casing.toSnake name) = (words name).map lowerWord := by
  have hsnake : Casing.toSnake name =
      "_".intercalate (((words name).map lowerWord).map String.ofList) := by
    rw [← String.toList_inj, Casing.toSnake, Casing.separated, String.toList_ofList,
      String.toList_intercalate, List.map_map, Function.comp_def]
    simp only [String.toList_ofList, List.map_id']
    rfl
  have hwords : ∀ w ∈ words name, words (String.ofList (lowerWord w)) = [lowerWord w] := by
    intro w hw
    have hbasic := basic_of_mem_words h hw
    refine words_of_small ?_ (small_of_mem_lowerWord hbasic)
    exact lowerWord_ne_nil ((words_spec name).2 w hw) fun c hc => (hbasic c hc).1
  rw [hsnake, words_intercalate, List.flatMap_map, List.flatMap_map, List.flatMap_congr hwords,
    List.map_eq_flatMap]

/-- In ASCII, camel case is made of the words that snake case keeps apart. -/
theorem camel_toSnake (h : ∀ c ∈ name.toList, c.val < 0x80) :
    Casing.camel.apply (Casing.toSnake name) = Casing.toCamel name := by
  have hbasic := fun w hw => @basic_of_mem_words w name h hw
  rw [Casing.apply, Casing.toCamel, Casing.toCamel, words_toSnake h]
  cases hwords : words name with
  | nil => rfl
  | cons first rest =>
    rw [hwords, List.forall_mem_cons] at hbasic
    have hrest : (rest.map lowerWord).flatMap capitalWord = rest.flatMap capitalWord := by
      rw [List.flatMap_map]
      exact List.flatMap_congr fun w hw => capitalWord_lowerWord (hbasic.2 w hw)
    rw [List.map_cons]
    dsimp only
    rw [lowerWord_of_small (small_of_mem_lowerWord hbasic.1), hrest]

end Naming

-- ---------------------------------------------------------------------------
-- Members of columns
-- ---------------------------------------------------------------------------

/-- Whether the entity of a table has a column. -/
def Blueprint.Declares (b : Blueprint) (table column : String) : Prop :=
  ∃ e ∈ b.entities, e.table.name = table ∧ column ∈ e.table.columnNames

section Members

variable {c : Catalog} {p : Profile} {toggles : FeatureToggles} {project table column : String}

/-- A column is the member that the profile calls it. -/
theorem fieldName_of_declares (h : c.Referential)
    (hdeclares : (Blueprint.ofSchema (Schema.infer c) p toggles project).Declares table column) :
    (Blueprint.ofSchema (Schema.infer c) p toggles project).fieldName table column =
      p.mapName column .field := by
  obtain ⟨e, he, rfl, hcolumn⟩ := hdeclares
  have hfields : e.fields = e.table.columns.map (Field.ofColumn p e.table) :=
    congrArg Entity.fields (build_of_mem he).2
  obtain ⟨col, hcol, rfl⟩ := List.mem_map.1 hcolumn
  have hfound : (e.field? col.name).isSome := by
    rw [Entity.field?, List.find?_isSome, hfields]
    exact ⟨_, List.mem_map_of_mem hcol, by simp [Field.ofColumn]⟩
  obtain ⟨f, hf⟩ := Option.isSome_iff_exists.1 hfound
  have hmem := List.mem_of_find?_eq_some hf
  have hname : f.column = col.name := by simpa using List.find?_some hf
  rw [hfields] at hmem
  obtain ⟨col', -, rfl⟩ := List.mem_map.1 hmem
  rw [Blueprint.fieldName, entity?_of_mem h he, Option.bind_some, hf, Option.map_some,
    Option.getD_some]
  exact congrArg (p.mapName · .field) hname

end Members

namespace TypeScript.Nest

open Code

-- ---------------------------------------------------------------------------
-- Reading decorators
-- ---------------------------------------------------------------------------

/-- How the lines begin that say which columns are joined. -/
def joinHeads : List (List Char) :=
  [['@', 'J', 'o', 'i', 'n', 'C', 'o', 'l', 'u', 'm', 'n', '('],
    ['@', 'J', 'o', 'i', 'n', 'T', 'a', 'b', 'l', 'e', '(']]

/-- What stands before a reference, last character first. -/
def referenceMark : List Char :=
  [' ', ':', 'e', 'm', 'a', 'N', 'n', 'm', 'u', 'l', 'o', 'C', 'd', 'e', 'c', 'n', 'e', 'r', 'e',
    'f', 'e', 'r']

/-- A literal leaves no more than it finds. -/
theorem length_readLiteral_le (mark : Char) (escaped : Bool) (cs : List Char) :
    (readLiteral mark escaped cs).2.length ≤ cs.length := by
  induction cs generalizing escaped with
  | nil => cases escaped <;> simp [readLiteral]
  | cons c rest ih =>
    have hfalse := ih false
    have htrue := ih true
    cases escaped with
    | true => simpa [readLiteral] using hfalse.trans (Nat.le_succ _)
    | false =>
      rw [readLiteral]
      split_ifs
      · simp
      · exact htrue.trans (by simp)
      · simpa using hfalse.trans (Nat.le_succ _)

/-- The literals of a line that are references. `before` are the characters since the last literal,
the last of them first. -/
def referencesFrom (before : List Char) : List Char → List String
  | [] => []
  | c :: rest =>
    if c = '\'' then
      let read := readLiteral '\'' false rest
      (if referenceMark.isPrefixOf before then [String.ofList read.1] else [])
        ++ referencesFrom [] read.2
    else referencesFrom (c :: before) rest
termination_by cs => cs.length
decreasing_by
  · exact Nat.lt_succ_of_le (length_readLiteral_le _ _ _)
  · simp

/-- The members that a decorator refers to. -/
def references (line : List Char) : List String :=
  if joinHeads.any (·.isPrefixOf line) then referencesFrom [] line else []

/-- A text that refers to some members, wherever it stands. -/
def Refers (text : String) (members : List String) : Prop :=
  ∀ before rest, ∃ left, referencesFrom before (text.toList ++ rest) =
    members ++ referencesFrom left rest

section Refers

variable {a b : String} {xs ys : List String}

/-- Text without a quotation mark refers to nothing. -/
theorem referencesFrom_plain {front : List Char} (h : '\'' ∉ front) (before rest : List Char) :
    referencesFrom before (front ++ rest) = referencesFrom (front.reverse ++ before) rest := by
  induction front generalizing before with
  | nil => rfl
  | cons c front ih =>
    rw [List.mem_cons, not_or] at h
    rw [List.cons_append, referencesFrom, if_neg (Ne.symm h.1), ih h.2, List.reverse_cons,
      List.append_assoc, List.singleton_append]

theorem Refers.plain (h : '\'' ∉ a.toList) : Refers a [] := fun before rest =>
  ⟨_, referencesFrom_plain h before rest⟩

/-- Texts one after the other refer to what each refers to. -/
theorem Refers.append (ha : Refers a xs) (hb : Refers b ys) : Refers (a ++ b) (xs ++ ys) := by
  intro before rest
  obtain ⟨left, hleft⟩ := ha before (b.toList ++ rest)
  obtain ⟨left', hleft'⟩ := hb left rest
  refine ⟨left', ?_⟩
  rw [String.toList_append, List.append_assoc, hleft, hleft', List.append_assoc]

/-- Whether a literal is a reference is settled by what stands before it. -/
theorem referencesFrom_literal (before : List Char) (s : String) (rest : List Char) :
    referencesFrom before ((TypeScript.literal s).toList ++ rest) =
      (if referenceMark.isPrefixOf before then [s] else []) ++ referencesFrom [] rest := by
  rw [TypeScript.literal, backslashed, String.toList_ofList, List.cons_append, List.cons_append,
    List.append_assoc, List.singleton_append, referencesFrom, if_pos rfl,
    readLiteral_escaped (by decide)]
  dsimp only
  rw [String.ofList_toList]

/-- A literal behind the mark of a reference refers to a member. -/
theorem Refers.reference {key : List Char} (hkey : '\'' ∉ key)
    (h : ∀ before, referenceMark.isPrefixOf (key.reverse ++ before) = true) (s : String) :
    Refers (String.ofList key ++ TypeScript.literal s) [s] := by
  intro before rest
  refine ⟨[], ?_⟩
  rw [String.toList_append, String.toList_ofList, List.append_assoc, referencesFrom_plain hkey,
    referencesFrom_literal, h, if_pos rfl]

/-- A literal behind anything else refers to none. -/
theorem Refers.other {key : List Char} (hkey : '\'' ∉ key)
    (h : ∀ before, referenceMark.isPrefixOf (key.reverse ++ before) = false) (s : String) :
    Refers (String.ofList key ++ TypeScript.literal s) [] := by
  intro before rest
  refine ⟨[], ?_⟩
  rw [String.toList_append, String.toList_ofList, List.append_assoc, referencesFrom_plain hkey,
    referencesFrom_literal, h, if_neg (by decide)]

/-- A list refers to what its elements refer to. -/
theorem Refers.list {α : Type} {text : α → String} {member : α → String} {listed : List α}
    (h : ∀ x ∈ listed, Refers (text x) [member x]) :
    Refers (", ".intercalate (listed.map text)) (listed.map member) := by
  induction listed with
  | nil => exact .plain (by simp)
  | cons x rest ih =>
    rw [List.forall_mem_cons] at h
    cases rest with
    | nil => simpa using h.1
    | cons next more =>
      have hcomma : Refers ", " [] := .plain (by decide)
      have hall := (h.1.append hcomma).append (ih h.2)
      rw [List.append_nil, List.singleton_append] at hall
      rw [List.map_cons, List.map_cons, String.intercalate_cons_cons, ← List.map_cons,
        List.map_cons (f := member)]
      exact hall

end Refers

/-- Columns refer to the members beside them. -/
theorem refers_joinColumns {columns targets : List String} (h : columns.length = targets.length) :
    Refers (joinColumns columns targets) (targets.map Casing.toCamel) := by
  have hname (c : String) : Refers ("\x7b name: " ++ literal c) [] :=
    .other (by decide) (fun _ => rfl) c
  -- of each pair only the far column is referred to
  have hreference (t : String) : Refers (", referencedColumnName: " ++ literal t) [t] :=
    .reference (by decide) (fun _ => rfl) t
  have hpair (x : String × String) : Refers ("\x7b name: " ++ literal x.1 ++
      ", referencedColumnName: " ++ literal (Casing.toCamel x.2) ++ " \x7d")
        [Casing.toCamel x.2] := by
    have hclose : Refers " \x7d" [] := .plain (by decide)
    have hall := ((hname x.1).append (hreference (Casing.toCamel x.2))).append hclose
    rw [← String.append_assoc] at hall
    exact hall
  have hlist := Refers.list fun x (_ : x ∈ columns.zip targets) => hpair x
  -- the lists are of one length, so no far column is lost
  have hmembers : (columns.zip targets).map (fun x => Casing.toCamel x.2) =
      targets.map Casing.toCamel := by
    calc (columns.zip targets).map (fun x => Casing.toCamel x.2)
      _ = ((columns.zip targets).map Prod.snd).map Casing.toCamel := by simp [Function.comp_def]
      _ = targets.map Casing.toCamel := by rw [List.map_snd_zip h.ge]
  have hopen : Refers "[" [] := .plain (by decide)
  have hclose : Refers "]" [] := .plain (by decide)
  have hall := (hopen.append hlist).append hclose
  rw [hmembers, List.append_nil, List.nil_append] at hall
  rw [joinColumns, ← List.map_uncurry_zip_eq_zipWith]
  exact hall

-- ---------------------------------------------------------------------------
-- Lines of an entity
-- ---------------------------------------------------------------------------

/-- The columns that the decorators of a relation refer to, each with its table. -/
def referred (e : Entity) (r : Relation) : List (String × String) :=
  let remote := r.remoteColumns.map (r.targetTable, ·)
  match r.kind, r.inverse, r.via with
  | .manyToOne, _, _ => remote
  | .oneToOne, false, _ => remote
  | .manyToMany, false, some _ => r.localColumns.map (e.table.name, ·) ++ remote
  | _, _, _ => []

/-- Columns that are joined stand side by side. -/
structure Paired (r : Relation) : Prop where
  direct  : r.kind ≠ .manyToMany →
              r.via = none ∧ r.localColumns.length = r.remoteColumns.length
  through : ∀ link, r.via = some link → link.localColumns.length = r.localColumns.length ∧
              link.remoteColumns.length = r.remoteColumns.length

/-- A line that begins like a join says what is joined. -/
theorem references_of_join {head : List Char} (hhead : head ∈ joinHeads) {text : String}
    (hstart : head <+: text.toList) {members : List String} (h : Refers text members) :
    references (unindented text) = members := by
  have hline : unindented text = text.toList := by
    obtain ⟨rest, hrest⟩ := hstart
    rw [unindented, ← hrest]
    simp only [joinHeads, List.mem_cons, List.not_mem_nil, or_false] at hhead
    rcases hhead with rfl | rfl <;> rfl
  have hjoin : joinHeads.any (·.isPrefixOf text.toList) = true :=
    List.any_eq_true.2 ⟨head, hhead, List.isPrefixOf_iff_prefix.2 hstart⟩
  obtain ⟨left, hleft⟩ := h [] []
  rw [List.append_nil] at hleft
  rw [hline, references, if_pos hjoin, hleft, referencesFrom, List.append_nil]

/-- The columns of a join refer to members in camel case. -/
theorem read_joinColumn {columns targets : List String} (h : columns.length = targets.length) :
    references (unindented ("@JoinColumn(" ++ joinColumns columns targets ++ ")")) =
      targets.map Casing.toCamel := by
  have hhead : Refers "@JoinColumn(" [] := .plain (by decide)
  have hclose : Refers ")" [] := .plain (by decide)
  have hall := (hhead.append (refers_joinColumns h)).append hclose
  rw [List.append_nil, List.nil_append] at hall
  refine references_of_join (List.mem_cons_self) ?_ hall
  rw [String.toList_append, String.toList_append, List.append_assoc]
  exact List.prefix_append _ _

/-- The columns of both sides of a junction do so. -/
theorem read_joinTable {link : Link} {r : Relation}
    (h : link.localColumns.length = r.localColumns.length ∧
      link.remoteColumns.length = r.remoteColumns.length) :
    references (unindented ("@JoinTable(\x7b name: " ++ literal link.table
      ++ ", joinColumns: " ++ joinColumns link.localColumns r.localColumns
      ++ ", inverseJoinColumns: " ++ joinColumns link.remoteColumns r.remoteColumns
      ++ " \x7d)")) = (r.localColumns ++ r.remoteColumns).map Casing.toCamel := by
  have htable : Refers ("@JoinTable(\x7b name: " ++ literal link.table) [] :=
    .other (by decide) (fun _ => rfl) _
  have hnear : Refers ", joinColumns: " [] := .plain (by decide)
  have hfar : Refers ", inverseJoinColumns: " [] := .plain (by decide)
  have hclose : Refers " \x7d)" [] := .plain (by decide)
  have hall := ((((htable.append hnear).append (refers_joinColumns h.1)).append hfar).append
    (refers_joinColumns h.2)).append hclose
  -- the near columns stand before the far ones
  rw [List.append_nil, List.append_nil, List.append_nil, List.nil_append, ← List.map_append] at hall
  refine references_of_join (List.mem_cons_of_mem _ List.mem_cons_self) ?_ hall
  have hopen : "@JoinTable(\x7b name: ".toList =
      ['@', 'J', 'o', 'i', 'n', 'T', 'a', 'b', 'l', 'e', '('] ++ "\x7b name: ".toList := rfl
  simp only [String.toList_append, hopen, List.append_assoc]
  exact List.prefix_append _ _

/-- The decorators of a relation refer to the columns that it joins, in camel case. -/
theorem read_relationDecorators (b : Blueprint) (e : Entity) {r : Relation} (h : Paired r) :
    (relationDecorators b e r).flatMap (fun line => references (unindented line)) =
      (referred e r).map fun x => Casing.toCamel x.2 := by
  have hone : references (unindented ("@ManyToOne(" ++ ("() => " ++ r.targetEntity) ++ ")")) = [] :=
    Says.line (.append (.append (.literal fun _ => rfl)))
  have hmany (both : String) : references (unindented ("@OneToMany" ++ both)) = [] :=
    Says.line (.append (.literal fun _ => rfl))
  have hsingle (both : String) : references (unindented ("@OneToOne" ++ both)) = [] :=
    Says.line (.append (.literal fun _ => rfl))
  have hseveral (both : String) : references (unindented ("@ManyToMany" ++ both)) = [] :=
    Says.line (.append (.literal fun _ => rfl))
  -- only the owning side of a relation names columns
  unfold relationDecorators referred
  cases hkind : r.kind with
  | manyToOne =>
    have hjoin := read_joinColumn (h.direct (by simp [hkind])).2
    simp [toString, hone, hjoin, Function.comp_def]
  | oneToMany => simp [hmany]
  | oneToOne =>
    cases hinverse : r.inverse with
    | true => simp [hsingle]
    | false =>
      have hjoin := read_joinColumn (h.direct (by simp [hkind])).2
      simp [hsingle, hjoin, Function.comp_def]
  | manyToMany =>
    cases hinverse : r.inverse with
    | true => simp [hseveral]
    | false =>
      cases hvia : r.via with
      | none => simp [hseveral]
      | some link =>
        have hjoin := read_joinTable (h.through link hvia)
        simp [hseveral, hjoin, Function.comp_def]

/-- A line that declares a member says nothing. -/
theorem read_member {name : String} (h : TameName name) {c : Char} (hc : c ≠ '@' ∧ c ≠ ' ')
    (more : List Char) (rest : String) :
    references (unindented (name ++ String.ofList (c :: more) ++ rest)) = [] := by
  have hplain {d : Char} (hd : d ≠ '@') (after : List Char) : references (d :: after) = [] := by
    simp [references, joinHeads, Ne.symm hd]
  rw [unindented, String.toList_append, String.toList_append, String.toList_ofList]
  cases hname : name.toList with
  | nil =>
    rw [List.nil_append, List.cons_append, List.dropWhile_cons_of_neg (by simpa using hc.2)]
    exact hplain hc.1 _
  | cons d after =>
    have hmem : d ∈ name.toList := hname ▸ List.mem_cons_self
    have hblank : d ≠ ' ' := fun heq => h.not_mem (by decide : ¬ Tame ' ') (heq ▸ hmem)
    have hat : d ≠ '@' := fun heq => h.not_mem (by decide : ¬ Tame '@') (heq ▸ hmem)
    rw [List.cons_append, List.cons_append, List.dropWhile_cons_of_neg (by simpa using hblank)]
    exact hplain hat _

/-- The decorator of a column refers to no member. -/
theorem read_columnDecorator (f : Field) : references (unindented (columnDecorator f)) = [] := by
  unfold columnDecorator
  dsimp only
  split
  · exact Says.line (.append (.append (.literal fun _ => rfl)))
  · split
    · exact Says.line (.append (.append (.literal fun _ => rfl)))
    · exact Says.line (.append (.append (.literal fun _ => rfl)))

/-- **Decorators.** The decorators of an entity refer to the columns that its relations join, in
camel case. -/
theorem read_entityModule (b : Blueprint) {e : Entity} (h : e.Tame)
    (hpaired : ∀ r ∈ e.relations, Paired r) :
    (entityModule b e).flatMap (read references) =
      e.relations.flatMap fun r => (referred e r).map fun x => Casing.toCamel x.2 := by
  -- a member's line has a colon, and no property is taken from what stands before it
  have hfield (f : Field) (hf : f ∈ e.fields) :
      references (unindented (f.name ++ "!: " ++ f.type.name ++ ";")) = [] := by
    rw [String.append_assoc]
    exact read_member (h.field f hf) (by decide) _ _
  have hrelation (r : Relation) (hr : r ∈ e.relations) :
      (relationMember b e r).flatMap (read references) =
        (referred e r).map fun x => Casing.toCamel x.2 := by
    have hmember (type : String) :
        references (unindented (r.name ++ "?: " ++ type ++ ";")) = [] := by
      rw [String.append_assoc]
      exact read_member (h.loader r hr) (by decide) _ _
    have hdecorators := read_relationDecorators b e (hpaired r hr)
    simp -implicitDefEqProofs only [relationMember, toString, List.flatMap_cons, List.flatMap_nil,
      read_line, hmember, List.append_nil]
    exact hdecorators
  have himport : references (unindented ("import \x7b " ++ ", ".intercalate (decoratorImports e) ++
      " \x7d from 'typeorm';")) = [] := Says.line (.append (.append (.literal fun _ => rfl)))
  have hneighbours : (e.neighbours.flatMap fun x => references (unindented
      ("import \x7b " ++ x.2 ++ " \x7d from '../" ++ x.1 ++ "/" ++ x.1 ++ ".entity';"))) = [] :=
    List.flatMap_eq_nil_iff.2 fun _ _ => Says.line
      (.append (.append (.append (.append (.append (.append (.literal fun _ => rfl)))))))
  have hempty : references (unindented "") = [] := read_literal rfl
  have hentity : references (unindented
      ("@Entity(\x7b name: " ++ literal e.table.name ++ " \x7d)")) = [] :=
    Says.line (.append (.append (.literal fun _ => rfl)))
  have hclass : references (unindented ("export class " ++ e.names.entity ++ " \x7b")) = [] :=
    Says.line (.append (.append (.literal fun _ => rfl)))
  have hclose : references (unindented ("\x7d" ++ "")) = [] :=
    Says.line (.append (.literal fun _ => rfl))
  have hfields : (e.fields.flatMap fun f =>
      references (unindented (f.name ++ "!: " ++ f.type.name ++ ";"))) = [] :=
    List.flatMap_eq_nil_iff.2 hfield
  unfold entityModule TypeScript.block
  simp -implicitDefEqProofs only [toString, List.flatMap_cons, List.flatMap_nil, read_each,
    read_line, List.nil_append, List.append_nil, himport, hneighbours, hempty, hentity,
    read_columnDecorator, hclass, hfields, read_block (by decide : ∀ c ∈ "  ".toList, c = ' ') hclose,
    read_spaced references rfl, List.flatMap_map]
  exact List.flatMap_congr hrelation

-- ---------------------------------------------------------------------------
-- Join columns
-- ---------------------------------------------------------------------------

section JoinColumns

variable {c : Catalog} {p : Profile} {e : Entity} {r : Relation}

/-- Relations of a referential catalog pair as many columns as they name. -/
theorem paired_of_mem (h : c.Referential) (he : e ∈ (Schema.infer c).entityModels p)
    (hr : r ∈ e.relations) : Paired r := by
  obtain ⟨target, -, -, hjoins⟩ := joins_of_mem h he hr
  -- the relation's kind tells whether there is a junction
  have hdirect (hvia : r.via = none) : r.localColumns.length = r.remoteColumns.length := by
    cases hjoins with
    | direct _ _ hlength => exact hlength
    | through hlink => exact absurd (hvia.symm.trans hlink) (by simp)
  refine ⟨fun hkind => ?_, fun link hvia => ?_⟩
  · obtain ⟨v, hshown⟩ := shown_of_mem he hr
    have hkinds : v.relationship.kind ≠ .manyToMany := by
      rintro heq
      refine hkind ?_
      have hkinds : r.kind = (v.relationship.seen v.inverse).kind := by
        rw [← hshown.relationship.2.1, hshown.eq he]
        rfl
      rw [hkinds]
      cases v.inverse
      · exact heq
      · exact congrArg RelationKind.inverse heq
    have hvia : r.via = none := by
      rw [hshown.eq he, RelationView.relation_via, via_of_kind h hshown.relationship.1 hkinds]
      rfl
    exact ⟨hvia, hdirect hvia⟩
  · cases hjoins with
    | direct hnone => exact absurd (hnone.symm.trans hvia) (by simp)
    | through hlink _ _ _ hnear hfar =>
      obtain rfl := Option.some_inj.1 (hvia.symm.trans hlink)
      exact ⟨hnear.length, hfar.length⟩

/-- What a relation refers to are columns of its entity and of its target. -/
theorem mem_referred {x : String × String} (hx : x ∈ referred e r) :
    x ∈ r.localColumns.map (e.table.name, ·) ++ r.remoteColumns.map (r.targetTable, ·) := by
  unfold referred at hx
  dsimp only at hx
  split at hx
  · exact List.mem_append_right _ hx
  · exact List.mem_append_right _ hx
  · exact hx
  · cases hx

/-- Only the end that owns a relationship refers to columns by way of a junction. -/
theorem owner_of_referred (hpaired : Paired r) {x : String × String} (hx : x ∈ referred e r)
    (hvia : r.via ≠ none) : r.inverse = false := by
  have hkind : r.kind = .manyToMany := by
    by_contra hkind
    exact hvia (hpaired.direct hkind).1
  unfold referred at hx
  rw [hkind] at hx
  cases hinverse : r.inverse with
  | false => rfl
  | true =>
    rw [hinverse] at hx
    cases hx

/-- **Join columns.** In the server of a script, for any target, the decorators of an entity refer
to the columns that its relations join, in camel case. The columns of the entity itself are declared,
and without a junction so are those of the other one. A declared column is the member that the
profile calls it. This is the one that is referred to if the profile writes fields in camel case and
in the singular, and the column is in ASCII. -/
theorem references_in_camel_case (script : String) (dialect : Dialect) (p : Profile)
    (toggles : FeatureToggles) (project : String) :
    let s := Schema.infer (Extraction.ofScript script dialect).catalog
    let b := Blueprint.ofSchema s p toggles project
    ∀ e ∈ b.entities,
      (entityModule b e).flatMap (read references) =
        e.relations.flatMap (fun r => (referred e r).map fun x => Casing.toCamel x.2) ∧
      ∀ r ∈ e.relations, ∀ x ∈ referred e r,
        (r.via = none ∨ x ∈ r.localColumns.map (e.table.name, ·) → b.Declares x.1 x.2) ∧
        (b.Declares x.1 x.2 → b.fieldName x.1 x.2 = p.mapName x.2 .field ∧
          (p.casing .field = .camel → p.plural.contains .field = false →
            (∀ c ∈ x.2.toList, c.val < 0x80) → Casing.toCamel x.2 = b.fieldName x.1 x.2)) := by
  intro s b e he
  have h : (Extraction.ofScript script dialect).catalog.Referential :=
    referential_ofStatements (dialect.resolve script) (originsOf script)
  refine ⟨read_entityModule b (tame_of_mem he) fun r hr => paired_of_mem h he hr, ?_⟩
  intro r hr x hx
  have hnear (hcolumn : x ∈ r.localColumns.map (e.table.name, ·))
      (hdeclared : ∀ column ∈ r.localColumns, column ∈ e.table.columnNames) :
      b.Declares x.1 x.2 := by
    obtain ⟨column, hmem, rfl⟩ := List.mem_map.1 hcolumn
    exact ⟨e, he, rfl, hdeclared column hmem⟩
  obtain ⟨v, hshown⟩ := shown_of_mem he hr
  obtain ⟨target, htarget, hname, hjoins⟩ := joins_of_mem h he hr
  obtain ⟨other, hother, hothername⟩ := exists_other h p hshown
  have hsame : other.table = target := by
    refine List.inj_on_of_nodup_map h.distinct.nodup (table_of_mem h hother).1 htarget ?_
    rw [hothername, hname, hshown.eq he, RelationView.relation_targetTable]
  -- the columns of a relation are declared where the schema has them join
  refine ⟨fun hplace => ?_, fun hdeclares => ?_⟩
  · cases hjoins with
    | direct _ _ _ hlocal hremote =>
      rcases List.mem_append.1 (mem_referred hx) with hcolumn | hcolumn
      · exact hnear hcolumn hlocal
      · obtain ⟨column, hmem, rfl⟩ := List.mem_map.1 hcolumn
        exact ⟨other, hother, hsame ▸ hname, hsame ▸ hremote column hmem⟩
    | through hvia _ _ _ hmeets _ howner =>
      have hsome : r.via ≠ none := by simp [hvia]
      rw [owner_of_referred (paired_of_mem h he hr) hx hsome] at howner
      exact hnear (hplace.resolve_left hsome) howner.declared
  · have hmember := fieldName_of_declares h hdeclares
    -- the member's name is the profile's; camel case is the same for what ASCII spells
    refine ⟨hmember, fun hcasing hsingular hascii => ?_⟩
    rw [hmember]
    simp only [Profile.mapName, hsingular, hcasing]
    exact (camel_toSnake hascii).symm

/-- A table with a key. -/
private def keyedTable : Table where
  name := "a"
  columns := [{ name := "a_id", declaredType := "INT", dataType := .integer, nullable := false,
                primaryKey := true }]
  primaryKey := ["a_id"]

/-- A table with a reference to the key of `keyedTable`. -/
private def referringTable : Table where
  name := "b"
  columns := [{ name := "x", declaredType := "INT", dataType := .integer }]
  foreignKeys := [⟨none, ["x"], "a", ["a_id"], .noAction, .noAction⟩]

/-- The catalog of two tables, one of which refers to the other. -/
private theorem tables_referring : (Extraction.ofScript
    "CREATE TABLE a (a_id INT PRIMARY KEY); CREATE TABLE b (x INT REFERENCES a(a_id))"
    .generic).catalog = { tables := [keyedTable, referringTable] } := by
  rw [Extraction.ofScript_of_toList String.toList_ofList]
  decide +kernel

/-- In camel case the member is the one that a decorator refers to. -/
theorem references_in_camel_case_of_key :
    let script := "CREATE TABLE a (a_id INT PRIMARY KEY); CREATE TABLE b (x INT REFERENCES a(a_id))"
    let s := Schema.infer (Extraction.ofScript script .generic).catalog
    let b := Blueprint.ofSchema s BuiltIn.nestjs {} "app"
    ∃ e ∈ b.entities, ∃ r ∈ e.relations, ∃ x ∈ referred e r, r.via = none ∧ b.Declares x.1 x.2 ∧
      BuiltIn.nestjs.casing .field = .camel ∧ BuiltIn.nestjs.plural.contains .field = false ∧
      (∀ c ∈ x.2.toList, c.val < 0x80) ∧ Casing.toCamel x.2 = b.fieldName x.1 x.2 := by
  intro script s b
  have hnear := build_mem_ofScript tables_referring BuiltIn.nestjs
    (by simp : referringTable ∈ [keyedTable, referringTable]) (by decide)
  have hrelation : ∃ r ∈ (Entity.build s BuiltIn.nestjs (.assign s BuiltIn.nestjs)
      referringTable).relations, r.via = none ∧
        ("a", "a_id") ∈ referred (Entity.build s BuiltIn.nestjs (.assign s BuiltIn.nestjs)
          referringTable) r := by
    have hs : s = Schema.infer { tables := [keyedTable, referringTable] } :=
      congrArg Schema.infer tables_referring
    rw [hs]
    decide +kernel
  obtain ⟨r, hr, hdirect, hx⟩ := hrelation
  have hcasing : BuiltIn.nestjs.casing .field = .camel := by decide +kernel
  have hsingular : BuiltIn.nestjs.plural.contains .field = false := by decide +kernel
  have hascii : ∀ c ∈ "a_id".toList, c.val < 0x80 := by decide +kernel
  obtain ⟨-, hall⟩ := references_in_camel_case script .generic BuiltIn.nestjs {} "app" _ hnear
  obtain ⟨hdeclared, hmember⟩ := hall r hr _ hx
  have hdeclares := hdeclared (.inl hdirect)
  exact ⟨_, hnear, r, hr, _, hx, hdirect, hdeclares, hcasing, hsingular, hascii,
    (hmember hdeclares).2 hcasing hsingular hascii⟩

/-- A document that has fields in snake case. -/
def snakeDocument : String :=
  "\n".intercalate [
    "[languages.typescript]",
    "extension = 'ts'",
    "fallback = 'unknown'",
    "array = '\x7b\x7d[]'",
    "decimal = 'string'",
    "nullable = \x7b template = '\x7b\x7d | null' \x7d",
    "naming = \x7b field = 'snake' \x7d",
    "types = \x7b integer = 'number' \x7d",
    "unsupported = ['text', 'enum', 'smallint', 'bigint',",
    "  'decimal', 'real', 'double', 'boolean', 'char',",
    "  'varchar', 'date', 'time', 'timestamp',",
    "  'timestamptz', 'interval', 'uuid', 'json',",
    "  'binary']",
    "[[targets]]",
    "language = 'typescript'",
    "framework = 'nestjs'"]

/-- The profile of that document. -/
def snakeNest : Profile where
  extension := "ts"
  types := [("integer", "number")]
  unsupported := ["bigint", "binary", "boolean", "char", "date", "decimal", "double", "enum",
    "interval", "json", "real", "smallint", "text", "time", "timestamp", "timestamptz", "uuid",
    "varchar"]
  fallback := "unknown"
  array := "\x7b\x7d[]"
  decimal := .string
  nullable := .template "\x7b\x7d | null"
  naming := [(.field, .snake)]
  key := ⟨"typescript", "nestjs"⟩

/-- The document of a profile whose fields are in snake case. -/
theorem ofToml_snake : ProfileSet.ofToml snakeDocument = .ok (.ofProfiles [snakeNest]) := by
  rw [ProfileSet.ofToml, Toml.parse?_of_toList ?chars]
  case chars =>
    apply toList_intercalate_of String.toList_ofList
    repeat' first | exact List.map_nil | apply map_toList_cons_of String.toList_ofList
  decide +kernel

/-- In snake case there is no member that a decorator refers to. -/
theorem reference_to_no_member :
    let script := "CREATE TABLE a (a_id INT PRIMARY KEY); CREATE TABLE b (x INT REFERENCES a(a_id))"
    let s := Schema.infer (Extraction.ofScript script .generic).catalog
    let b := Blueprint.ofSchema s snakeNest {} "app"
    ProfileSet.ofToml snakeDocument = .ok (.ofProfiles [snakeNest]) ∧
      ∃ e ∈ b.entities, (entityModule b e).flatMap (read references) = ["aId"] ∧
        b.fieldName "a" "a_id" = "a_id" := by
  intro script s b
  have h : (Extraction.ofScript script .generic).catalog.Referential :=
    referential_ofStatements _ _
  -- a profile that writes members in snake case, where camel case is still referred to
  have hnear := build_mem_ofScript tables_referring snakeNest
    (by simp : referringTable ∈ [keyedTable, referringTable]) (by decide)
  have hfar := build_mem_ofScript tables_referring snakeNest
    (by simp : keyedTable ∈ [keyedTable, referringTable]) (by decide)
  refine ⟨ofToml_snake, _, hnear, ?_, ?_⟩
  · rw [read_entityModule b (tame_of_mem hnear) fun r hr => paired_of_mem h hnear hr,
      tables_referring]
    decide +kernel
  · have hdeclares : b.Declares "a" "a_id" := ⟨_, hfar, rfl, List.mem_cons_self⟩
    have hname : snakeNest.mapName "a_id" .field = "a_id" := by decide +kernel
    exact (fieldName_of_declares h hdeclares).trans hname

end JoinColumns

end TypeScript.Nest

end CrudGen
