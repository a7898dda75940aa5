import CrudGen.Proofs.Server.Calls.Rust
import CrudGen.Proofs.Text.Pieces
import CrudGen.Server.Go.Basic
import CrudGen.Server.Java.Service
import CrudGen.Target.BuiltIn

/-!
# Keys of cached rows

Servers in Rust, Go and Java keep a row under a text that they compute from its key: the values with
slashes between them. A slash in a value cannot be told from one between values.

Main results:

* `operands_rust`, `operands_go`, `operands_java` — what the expressions for these texts compute.
* `keys_differ_iff` — keys of several values may have one text, but not if their values have
  slashes at one place only.
* `keys_meet` — two rows under one text.
-/

namespace CrudGen

open Text (splitAll)

namespace Cache

-- ---------------------------------------------------------------------------
-- Expressions
-- ---------------------------------------------------------------------------

/-- What an expression for a text is put together from: parameters and fixed texts. -/
inductive Operand where
  | parameter (name : String)
  | fixed (text : String)
  deriving DecidableEq, Repr

/-- The text of an expression whose parameters have the values of a key, in order. -/
def textOf : List Operand → List String → String
  | [], _ => ""
  | .fixed text :: rest, key => text ++ textOf rest key
  | .parameter _ :: rest, [] => textOf rest []
  | .parameter _ :: rest, value :: key => value ++ textOf rest key

/-- Whether different keys of so many values have different texts. -/
def TellsApart (ops : List Operand) (n : Nat) : Prop :=
  ∀ key key' : List String, key.length = n → key'.length = n → key ≠ key' →
    textOf ops key ≠ textOf ops key'

/-- Parameters with slashes between them. -/
def slashed (names : List String) : List Operand :=
  [.fixed "/"].intercalate (names.map fun name => [.parameter name])

/-- The text of a key is its values with slashes between them. -/
theorem textOf_slashed {names key : List String} (h : names.length = key.length) :
    textOf (slashed names) key = "/".intercalate key := by
  induction names generalizing key with
  | nil =>
    obtain rfl := List.length_eq_zero_iff.1 h.symm
    rfl
  | cons name names ih =>
    obtain ⟨value, key, rfl⟩ := List.exists_cons_of_length_eq_add_one h.symm
    cases names with
    | nil =>
      obtain rfl := List.length_eq_zero_iff.1 (Nat.succ.inj h).symm
      simp [slashed, textOf]
    | cons next names =>
      obtain ⟨value', key, rfl⟩ := List.exists_cons_of_length_eq_add_one (Nat.succ.inj h).symm
      rw [String.intercalate_cons_cons, ← ih (Nat.succ.inj h), String.append_assoc]
      rfl

-- ---------------------------------------------------------------------------
-- Slashes in values
-- ---------------------------------------------------------------------------

/-- Whether no value of a key has slashes, but for the one at some place. -/
def SlashesOnlyAt (i : Nat) (key : List String) : Prop :=
  ∀ j, j ≠ i → ∀ value ∈ key[j]?, '/' ∉ value.toList

/-- The pieces of values between slashes. -/
def pieces (key : List String) : List (List Char) :=
  key.flatMap fun value => splitAll (· == '/') value.toList

variable {i : Nat} {value : String} {key key' : List String}

/-- The first value may have slashes if no other has one. -/
theorem slashesOnlyAt_zero :
    SlashesOnlyAt 0 (value :: key) ↔ ∀ value ∈ key, '/' ∉ value.toList := by
  constructor
  · intro h value hvalue
    obtain ⟨j, hj⟩ := List.mem_iff_getElem?.1 hvalue
    exact h (j + 1) (Nat.succ_ne_zero j) value hj
  · intro h j hj value hvalue
    obtain ⟨k, rfl⟩ := Nat.exists_eq_succ_of_ne_zero hj
    exact h value (List.mem_of_getElem? hvalue)

/-- A later value may have slashes if the first has none and the rest allow it. -/
theorem slashesOnlyAt_succ :
    SlashesOnlyAt (i + 1) (value :: key) ↔ '/' ∉ value.toList ∧ SlashesOnlyAt i key := by
  constructor
  · exact fun h => ⟨h 0 (Nat.succ_ne_zero i).symm value rfl, fun j hj => h (j + 1) (by omega)⟩
  · rintro ⟨hvalue, hkey⟩ j hj
    cases j with
    | zero =>
      intro value' hvalue'
      obtain rfl : value = value' := Option.some_inj.1 hvalue'
      exact hvalue
    | succ j => exact hkey j (by omega)

/-- A value without slashes is one piece. -/
theorem splitAll_of_not_mem (h : '/' ∉ value.toList) :
    splitAll (· == '/') value.toList = [value.toList] := by
  refine Text.splitAll_eq_singleton fun c hc => ?_
  rw [beq_eq_false_iff_ne]
  rintro rfl
  exact h hc

/-- Values without slashes are their own pieces. -/
theorem pieces_of_not_mem (h : ∀ value ∈ key, '/' ∉ value.toList) :
    pieces key = key.map String.toList := by
  rw [pieces, List.flatMap_congr fun value hvalue => splitAll_of_not_mem (h value hvalue)]
  exact List.flatMap_pure_eq_map _ _

/-- The text of a key has the pieces of its values. -/
theorem splitAll_text (hkey : key ≠ []) :
    splitAll (· == '/') ("/".intercalate key).toList = pieces key := by
  have hslash : "/".toList = ['/'] := String.toList_ofList
  rw [String.toList_intercalate, hslash, Text.splitAll_joined '/' (by simpa using hkey),
    List.flatMap_map]
  rfl

/-- Keys of as many values with the same pieces are the same if slashes stand at one place only. -/
theorem eq_of_pieces (hlength : key.length = key'.length) (h : SlashesOnlyAt i key)
    (h' : SlashesOnlyAt i key') (hpieces : pieces key = pieces key') : key = key' := by
  induction key generalizing i key' with
  | nil => exact (List.length_eq_zero_iff.1 hlength.symm).symm
  | cons value rest ih =>
    obtain ⟨value', rest', rfl⟩ := List.exists_cons_of_length_eq_add_one hlength.symm
    have hlength := Nat.succ.inj hlength
    rw [pieces, pieces, List.flatMap_cons, List.flatMap_cons] at hpieces
    cases i with
    | zero =>
      -- the values behind the first have one piece each, so the first ones have as many
      rw [slashesOnlyAt_zero] at h h'
      have hrest := pieces_of_not_mem h
      have hrest' := pieces_of_not_mem h'
      rw [pieces] at hrest hrest'
      rw [hrest, hrest'] at hpieces
      obtain ⟨hfirst, hothers⟩ := List.append_inj' hpieces (by simpa using hlength)
      have hvalue := congrArg (List.intercalate ['/']) hfirst
      rw [Text.intercalate_splitAll, Text.intercalate_splitAll, String.toList_inj] at hvalue
      rw [hvalue, (List.map_inj_right fun _ _ => String.toList_inj.1).1 hothers]
    | succ i =>
      rw [slashesOnlyAt_succ] at h h'
      rw [splitAll_of_not_mem h.1, splitAll_of_not_mem h'.1] at hpieces
      obtain ⟨hvalue, hothers⟩ := List.cons.inj hpieces
      rw [String.toList_inj.1 hvalue, ih hlength h.2 h'.2 hothers]

-- ---------------------------------------------------------------------------
-- Texts of keys
-- ---------------------------------------------------------------------------

variable {names : List String}

/-- A slash is read at either side of the one between two values. -/
theorem intercalate_shifted (rest : List String) :
    "/".intercalate ("/" :: "" :: rest) = "/".intercalate ("" :: "/" :: rest) := by
  cases rest with
  | nil => rfl
  | cons value more =>
    simp only [String.intercalate_cons_cons, ← String.append_assoc]
    rfl

/-- Keys with slashes in one place only are told apart by their texts. -/
theorem eq_of_textOf_slashed (hkey : key.length = names.length) (hkey' : key'.length = names.length)
    (h : SlashesOnlyAt i key) (h' : SlashesOnlyAt i key')
    (htext : textOf (slashed names) key = textOf (slashed names) key') : key = key' := by
  rw [textOf_slashed hkey.symm, textOf_slashed hkey'.symm] at htext
  have hlength : key.length = key'.length := hkey.trans hkey'.symm
  by_cases hempty : key = []
  · subst hempty
    exact (List.length_eq_zero_iff.1 hlength.symm).symm
  · have hsome : key' ≠ [] := fun h => hempty (List.length_eq_zero_iff.1 (by rw [hlength, h]; rfl))
    refine eq_of_pieces hlength h h' ?_
    rw [← splitAll_text hempty, ← splitAll_text hsome, htext]

/-- Texts with slashes tell keys apart only if keys have one value at most. -/
theorem tellsApart_slashed_iff :
    TellsApart (slashed names) names.length ↔ names.length ≤ 1 := by
  constructor
  · intro h
    by_contra hmany
    obtain ⟨n, hn⟩ : ∃ n, names.length = n + 2 := ⟨names.length - 2, by omega⟩
    let rest := List.replicate n ""
    have hlength (first second : String) : (first :: second :: rest).length = names.length := by
      simp [rest, hn]
    refine h ("/" :: "" :: rest) ("" :: "/" :: rest) (hlength _ _) (hlength _ _) (by simp) ?_
    rw [textOf_slashed (hlength _ _).symm, textOf_slashed (hlength _ _).symm, intercalate_shifted]
  · -- there is no place but one
    intro hfew key key' hkey hkey' hne hsame
    have hone {key : List String} (hkey : key.length = names.length) : SlashesOnlyAt 0 key := by
      intro j hj value hvalue
      rw [List.getElem?_eq_none (by omega)] at hvalue
      cases hvalue
    exact hne (eq_of_textOf_slashed hkey hkey' (hone hkey) (hone hkey') hsame)

end Cache

-- ---------------------------------------------------------------------------
-- Reading expressions
-- ---------------------------------------------------------------------------

open Cache Naming Text

namespace Rust

/-- A template whose placeholders stand for some parameters in order. -/
def filled : List Char → List String → List Operand
  | '\x7b' :: '\x7d' :: rest, name :: names => .parameter name :: filled rest names
  | c :: rest, names => .fixed (String.ofList [c]) :: filled rest names
  | [], _ => []

/-- What a call of `format!` puts together: its first argument says how. -/
def operands (expression : String) : List Operand :=
  match separated ',' (argument expression.toList).toList with
  | template :: names => filled template.tail.dropLast (names.map String.ofList)
  | [] => []

/-- A template of placeholders is filled in with values and slashes. -/
theorem filled_template (names : List String) :
    filled (['/'].intercalate (names.map fun _ => ['\x7b', '\x7d'])) names = slashed names := by
  induction names with
  | nil => rfl
  | cons name rest ih =>
    cases rest with
    | nil => rfl
    | cons next more =>
      rw [List.map_cons, List.map_cons, List.intercalate_cons_cons]
      exact congrArg (Operand.parameter name :: .fixed "/" :: ·) ih

/-- The key of a cache in Rust is its values with slashes between them. -/
theorem operands_rust {e : Entity} (h : e.Tame) (hkey : e.keyFields ≠ []) :
    operands (Key.ofEntity e).cacheKey = slashed (Key.ofEntity e).names := by
  let template := ['/'].intercalate ((Key.ofEntity e).names.map fun _ => ['\x7b', '\x7d'])
  -- neither the names nor the template have a comma or blank of their own
  have hnames : ∀ cs ∈ (Key.ofEntity e).names.map String.toList, Bare ',' cs := by
    rw [List.forall_mem_map]
    intro name hname
    obtain ⟨f, hf, rfl⟩ := List.mem_map.1 hname
    have hfield := h.field f (List.mem_filter.1 hf).1
    exact ⟨not_mem_ident hfield (by decide) (by decide),
      not_mem_ident hfield (by decide) (by decide)⟩
  have htemplate : Bare ',' ('"' :: (template ++ ['"'])) := by
    have hplain {c : Char} (hc : c ∉ ['/', '\x7b', '\x7d']) : c ∉ template := by
      intro hmem
      rcases Text.exists_of_mem_intercalate hmem with hslash | ⟨cs, hcs, hmem⟩
      · simp_all
      · obtain ⟨name, -, rfl⟩ := List.mem_map.1 hcs
        simp_all
    have hcomma := hplain (by decide : ',' ∉ ['/', '\x7b', '\x7d'])
    have hblank := hplain (by decide : ' ' ∉ ['/', '\x7b', '\x7d'])
    simp [Bare, hcomma, hblank]
  -- what the macro is called with, argument by argument
  have hline : (Key.ofEntity e).cacheKey.toList = "format!".toList ++ '(' ::
      ((spacedOut 0 ',' 1).intercalate
        (('"' :: (template ++ ['"'])) :: (Key.ofEntity e).names.map String.toList) ++ [')']) := by
    have hopen : "format!(\"".toList = "format!".toList ++ ['(', '"'] := rfl
    have hmiddle : "\", ".toList = ['"', ',', ' '] := String.toList_ofList
    have hclose : ")".toList = [')'] := String.toList_ofList
    have hslash : "/".toList = ['/'] := String.toList_ofList
    have hcomma : ", ".toList = [',', ' '] := String.toList_ofList
    have hplace : "\x7b\x7d".toList = ['\x7b', '\x7d'] := String.toList_ofList
    have hnames : (Key.ofEntity e).names.map String.toList ≠ [] := by
      simpa [Key.names, Key.ofEntity] using hkey
    obtain ⟨first, others, hothers⟩ := List.exists_cons_of_ne_nil hnames
    rw [hothers, List.intercalate_cons_cons, ← hothers]
    simp [Key.cacheKey, Key.args, Key.names, template, spacedOut, hopen, hmiddle, hclose, hslash,
      hcomma, hplace, List.map_map, Function.comp_def]
  -- the arguments are split at their commas, and the template is filled in with them
  rw [operands, hline, argument_append (by decide), String.toList_ofList,
    separated_intercalate (by decide) (by simp) (List.forall_mem_cons.2 ⟨htemplate, hnames⟩)]
  have hback : ((Key.ofEntity e).names.map String.toList).map String.ofList =
      (Key.ofEntity e).names := by
    rw [List.map_map]
    exact List.map_id'' (fun _ => String.ofList_toList) _
  dsimp only
  rw [List.tail_cons, List.dropLast_concat, hback, filled_template]

end Rust

namespace Go

/-- What an argument stands for: a literal for its text, and else a parameter. -/
def operandOf : List Char → Operand
  | '"' :: rest => .fixed (String.ofList rest.dropLast)
  | name => .parameter (String.ofList name)

/-- What a call of `fmt.Sprint` puts together. Only parameters side by side would be set apart. -/
def operands (expression : String) : List Operand :=
  (separated ',' (Rust.argument expression.toList).toList).map operandOf

/-- A parameter has a tame name. -/
theorem tameName_param (f : Field) : TameName (param f) := by
  have hname : TameName (Casing.camel.apply f.column) := tameName_apply fun h => by cases h
  unfold param
  dsimp only
  split
  · rw [TameName, String.toList_append, List.forall_mem_append]
    exact ⟨hname, by decide⟩
  · exact hname

/-- A tame name is read as the parameter that it is. -/
theorem operandOf_tame {name : String} (h : TameName name) :
    operandOf name.toList = .parameter name := by
  have hquote : '"' ∉ name.toList := h.not_mem (by decide)
  unfold operandOf
  split
  · rename_i hcs
    exact absurd (hcs ▸ List.mem_cons_self) hquote
  · rw [String.ofList_toList]

/-- The key of a cache in Go is its values with slashes between them. -/
theorem operands_go {e : Entity} (hkey : e.keyFields ≠ []) :
    operands (cacheKey e) = slashed (e.keyFields.map param) := by
  have hline : (cacheKey e).toList = "fmt.Sprint".toList ++ '(' ::
      ((spacedOut 0 ',' 1 ++ (['"', '/', '"'] ++ spacedOut 0 ',' 1)).intercalate
        (e.keyFields.map fun f => (param f).toList) ++ [')']) := by
    have hopen : "fmt.Sprint(".toList = "fmt.Sprint".toList ++ ['('] := rfl
    have hclose : ")".toList = [')'] := String.toList_ofList
    have hslash : ", \"/\", ".toList = [',', ' ', '"', '/', '"', ',', ' '] := String.toList_ofList
    simp [cacheKey, spacedOut, hopen, hclose, hslash, List.map_map, Function.comp_def]
  have hparams : ∀ cs ∈ e.keyFields.map fun f => (param f).toList, Bare ',' cs := by
    rw [List.forall_mem_map]
    intro f _
    exact ⟨(tameName_param f).not_mem (by decide), (tameName_param f).not_mem (by decide)⟩
  rw [operands, hline, Rust.argument_append (by decide), String.toList_ofList,
    separated_between (by decide) (by simpa using hkey) (by simp [Bare]) hparams, map_intercalate,
    List.map_map, slashed, List.map_map]
  simp only [Function.comp_def, operandOf_tame (tameName_param _)]
  rfl

end Go

namespace Java

/-- What a summand stands for: a literal for its text, a parameter behind a number sign. -/
def operandOf : List Char → Operand
  | '#' :: name => .parameter (String.ofList name)
  | literal => .fixed (String.ofList literal.tail.dropLast)

/-- What a sum puts together. -/
def operands (expression : String) : List Operand :=
  (separated '+' expression.toList).map operandOf

/-- A marked name is tame if the name is. -/
theorem tameName_ident {name : String} (h : TameName name) : TameName (ident name) := by
  unfold ident
  split
  · rw [TameName, String.toList_append, List.forall_mem_append]
    exact ⟨h, by decide⟩
  · exact h

/-- The key of a cache in Java is its values with slashes between them. -/
theorem operands_java {e : Entity} (h : e.Tame) (hkey : e.keyFields ≠ []) :
    operands (cacheKey e) = slashed (e.keyFields.map fun f => ident f.name) := by
  -- the parameters with a slash between them, each behind its sign
  have hline : (cacheKey e).toList =
      (spacedOut 1 '+' 1 ++ (['\'', '/', '\''] ++ spacedOut 1 '+' 1)).intercalate
        (e.keyFields.map fun f => '#' :: (ident f.name).toList) := by
    have hslash : " + '/' + ".toList = [' ', '+', ' ', '\'', '/', '\'', ' ', '+', ' '] :=
      String.toList_ofList
    have hsign : "#".toList = ['#'] := String.toList_ofList
    simp [cacheKey, spacedOut, hslash, hsign, List.map_map, Function.comp_def]
  have hparams : ∀ cs ∈ e.keyFields.map fun f => '#' :: (ident f.name).toList, Bare '+' cs := by
    rw [List.forall_mem_map]
    intro f hf
    have hname := tameName_ident (h.field f (List.mem_filter.1 hf).1)
    have hplus : '+' ∉ (ident f.name).toList := hname.not_mem (by decide)
    have hblank : ' ' ∉ (ident f.name).toList := hname.not_mem (by decide)
    simp [Bare, hplus, hblank]
  rw [operands, hline, separated_between (by decide) (by simpa using hkey) (by simp [Bare]) hparams,
    map_intercalate, List.map_map, slashed, List.map_map]
  simp only [Function.comp_def, operandOf, String.ofList_toList]
  rfl

end Java

-- ---------------------------------------------------------------------------
-- Entities
-- ---------------------------------------------------------------------------

namespace Cache

/-- What the texts that the rows of an entity are kept under in Rust, Go and Java are put together
from. -/
def operandsOf (e : Entity) : List (List Operand) :=
  [Rust.operands (Rust.Key.ofEntity e).cacheKey, Go.operands (Go.cacheKey e),
    Java.operands (Java.cacheKey e)]

variable {s : Schema} {p : Profile} {e : Entity}

/-- All three of them are, one value for each field of the key. -/
theorem exists_slashed_of_mem (h : e.Tame) (hkey : e.keyFields ≠ []) {ops : List Operand}
    (hops : ops ∈ operandsOf e) :
    ∃ names, ops = slashed names ∧ names.length = e.keyFields.length := by
  simp only [operandsOf, List.mem_cons, List.not_mem_nil, or_false] at hops
  rcases hops with hrust | hgo | hjava
  · exact ⟨_, hrust.trans (Rust.operands_rust h hkey), by simp [Rust.Key.names, Rust.Key.ofEntity]⟩
  · exact ⟨_, hgo.trans (Go.operands_go hkey), List.length_map _⟩
  · exact ⟨_, hjava.trans (Java.operands_java h hkey), List.length_map _⟩

/-- A table whose key is two texts. -/
def pairsTable : Table where
  name := "t"
  columns := [
    { name := "a", declaredType := "TEXT", dataType := .text, nullable := false,
      primaryKey := true },
    { name := "b", declaredType := "TEXT", dataType := .text, nullable := false,
      primaryKey := true }]
  primaryKey := ["a", "b"]

/-- Two keys of two values can always be found that are not told apart. -/
theorem exists_pairs (p : Profile) :
    let script := "CREATE TABLE t (a TEXT, b TEXT, PRIMARY KEY (a, b))"
    let s := Schema.infer (Extraction.ofScript script .generic).catalog
    ∃ e ∈ s.entityModels p, e.keyFields.map (·.column) = ["a", "b"] := by
  intro script s
  have hcatalog : (Extraction.ofScript script .generic).catalog = { tables := [pairsTable] } := by
    simp only [script]
    rw [Extraction.ofScript_of_toList String.toList_ofList]
    decide +kernel
  exact ⟨_, build_mem_ofScript hcatalog p (List.mem_singleton_self pairsTable) rfl, rfl⟩

/-- **Cached rows.** Different keys of an entity have different texts in every language exactly if
there are no two values in a key. Where there are more, keys still have different texts if all
slashes in their values stand at one place. -/
theorem keys_differ_iff (he : e ∈ s.entityModels p) :
    ∀ ops ∈ operandsOf e,
      (TellsApart ops e.keyFields.length ↔ e.keyFields.length ≤ 1) ∧
      ∀ i key key', key.length = e.keyFields.length → key'.length = e.keyFields.length →
        SlashesOnlyAt i key → SlashesOnlyAt i key' → key ≠ key' →
          textOf ops key ≠ textOf ops key' := by
  intro ops hops
  by_cases hkey : e.keyFields = []
  · have hnone {key key' : List String} (h : key.length = 0) (h' : key'.length = 0) :
        key = key' := by
      rw [List.length_eq_zero_iff.1 h, List.length_eq_zero_iff.1 h']
    rw [hkey, List.length_nil]
    exact ⟨iff_of_true (fun _ _ h h' hne => absurd (hnone h h') hne) (Nat.zero_le 1),
      fun _ _ _ h h' _ _ hne => absurd (hnone h h') hne⟩
  · obtain ⟨names, rfl, hlength⟩ := exists_slashed_of_mem (tame_of_mem he) hkey hops
    rw [← hlength]
    exact ⟨tellsApart_slashed_iff, fun i key key' h h' hkey hkey' =>
      mt (eq_of_textOf_slashed h h' hkey hkey')⟩

/-- The rows of a table whose key is two texts are told apart where the first of them has no
slashes, but not all of them. -/
theorem keys_differ_of_pairs :
    let script := "CREATE TABLE t (a TEXT, b TEXT, PRIMARY KEY (a, b))"
    let s := Schema.infer (Extraction.ofScript script .generic).catalog
    ∃ e ∈ s.entityModels BuiltIn.axum, e.keyFields.map (·.column) = ["a", "b"] ∧
      ∀ ops ∈ operandsOf e,
        ¬ TellsApart ops 2 ∧ textOf ops ["1", "2/3"] ≠ textOf ops ["1", "2/"] := by
  intro script s
  obtain ⟨e, he, hcolumns⟩ := exists_pairs BuiltIn.axum
  have hlength : e.keyFields.length = 2 := by simpa using congrArg List.length hcolumns
  have honly (value : String) : SlashesOnlyAt 1 ["1", value] := by
    rw [slashesOnlyAt_succ, slashesOnlyAt_zero]
    exact ⟨by decide, List.forall_mem_nil _⟩
  refine ⟨e, he, hcolumns, fun ops hops => ?_⟩
  obtain ⟨hiff, hdiffer⟩ := keys_differ_iff he ops hops
  rw [hlength] at hiff hdiffer
  exact ⟨fun htells => absurd (hiff.1 htells) (by decide),
    hdiffer 1 _ _ rfl rfl (honly _) (honly _) (by decide)⟩

/-- Two rows of such a table are kept under one text. -/
theorem keys_meet :
    ¬ ∀ (script : String) (dialect : Sql.Dialect) (p : Profile),
      let s := Schema.infer (Extraction.ofScript script dialect).catalog
      ∀ e ∈ s.entityModels p, ∀ ops ∈ operandsOf e, TellsApart ops e.keyFields.length := by
  intro h
  obtain ⟨e, he, hcolumns⟩ := exists_pairs BuiltIn.axum
  have hlength : e.keyFields.length = 2 := by simpa using congrArg List.length hcolumns
  have hkey : e.keyFields ≠ [] := List.ne_nil_of_length_pos (by omega)
  have htells := h _ _ _ e he _ (List.mem_cons_self : Rust.operands _ ∈ operandsOf e)
  rw [Rust.operands_rust (tame_of_mem he) hkey] at htells
  have hnames : (Rust.Key.ofEntity e).names.length = 2 := by
    simpa [Rust.Key.names, Rust.Key.ofEntity] using hlength
  refine htells ["a/b", "c"] ["a", "b/c"] hlength.symm hlength.symm (by decide) ?_
  rw [textOf_slashed hnames, textOf_slashed hnames]
  decide

end Cache

end CrudGen
