import CrudGen.Proofs.Server.Calls.Rust
import CrudGen.Server.Rust.Basic
import CrudGen.Server.TypeScript.Express

/-!
# Members of inputs

The lines of inputs say which members the object has that a row is created from, and which of them
may be left out.

Main results:

* `Rust.createMembers_eq` — there is a member for each input in Rust.
* `TypeScript.Express.createMembers_eq` — there is one in Express.
-/

namespace CrudGen

open Code Naming

/-- A member of what rows are created from. -/
structure InputMember where
  name : String
  type : String
  /-- Whether it may be left out. -/
  optional : Bool
  deriving DecidableEq, Repr

-- ---------------------------------------------------------------------------
-- Rust
-- ---------------------------------------------------------------------------

namespace Rust

/-- What a line of the inputs says: that a structure begins, that the next member may be left out,
or that there is a member of some type. -/
inductive InputLine where
  | struct (head : String)
  | optional
  | member (name type : String)
  deriving DecidableEq, Repr

/-- How structures and members begin: `pub `. -/
def publicHead : List Char :=
  ['p', 'u', 'b', ' ']

/-- What stands before a member that has a default: `#[serde(default)]`. -/
def optionalMark : List Char :=
  ['#', '[', 's', 'e', 'r', 'd', 'e', '(', 'd', 'e', 'f', 'a', 'u', 'l', 't', ')', ']']

/-- What a line of the inputs says. A member has its type behind a colon. -/
def inputLinesIn (cs : List Char) : List InputLine :=
  match cs.dropPrefix? publicHead with
  | some rest =>
    match rest.dropWhile (· != ':') with
    | [] => [.struct (String.ofList rest)]
    | _ :: behind =>
      [.member (String.ofList (rest.takeWhile (· != ':'))) (String.ofList behind.tail.dropLast)]
  | none => if optionalMark.isPrefixOf cs then [.optional] else []

/-- The members up to where the next structure begins. -/
def membersFrom : List InputLine → List InputMember
  | .optional :: .member name type :: rest => ⟨name, type, true⟩ :: membersFrom rest
  | .member name type :: rest => ⟨name, type, false⟩ :: membersFrom rest
  | _ => []

/-- The members of a structure. -/
def membersOf (head : String) (lines : List InputLine) : List InputMember :=
  membersFrom (lines.dropWhile (· != .struct head)).tail

/-- How the structure begins that rows are created from. -/
def createHead (e : Entity) : String :=
  s!"struct Create{e.names.entity} \x7b"

/-- The members of the structure that rows are created from. -/
def createMembers (b : Blueprint) (e : Entity) : List InputMember :=
  membersOf (createHead e) ((inputModule b e).flatMap (read inputLinesIn))

/-- The type of an input when a row is created. -/
def createType (f : Field) : String :=
  if f.isRequiredInput || f.type.nullable then f.type.name else s!"Option<{f.type.inner}>"

/-- The member for an input. -/
def memberOf (f : Field) : InputMember :=
  ⟨ident f.name, createType f, !f.isRequiredInput⟩

/-- What the lines for an input say. -/
def linesOf (f : Field) : List InputLine :=
  (if f.isRequiredInput then [] else [.optional]) ++ [.member (ident f.name) (createType f)]

/-- A public line is a structure, or a member if it has a colon. -/
theorem inputLinesIn_public (text : String) : inputLinesIn (unindented ("pub " ++ text)) =
    match text.toList.dropWhile (· != ':') with
    | [] => [.struct text]
    | _ :: behind => [.member (String.ofList (text.toList.takeWhile (· != ':')))
        (String.ofList behind.tail.dropLast)] := by
  have hhead : "pub ".toList = publicHead := String.toList_ofList
  have hline : unindented ("pub " ++ text) = publicHead ++ text.toList := by
    rw [unindented, String.toList_append, hhead]
    rfl
  have hdrop : (publicHead ++ text.toList).dropPrefix? publicHead = some text.toList :=
    List.dropPrefix?_eq_some_iff.2 ⟨publicHead, rfl, beq_self_eq_true _⟩
  rw [hline, inputLinesIn, hdrop]
  dsimp only
  rw [String.ofList_toList]

/-- A structure is a public line without a colon. -/
theorem read_struct {head : String} (h : ':' ∉ head.toList) :
    inputLinesIn (unindented ("pub " ++ head)) = [.struct head] := by
  rw [inputLinesIn_public, Text.dropWhile_ne_of_not_mem h]

/-- A member is a public line with a name, a colon and a type. -/
theorem read_member {name : String} (h : ':' ∉ name.toList) (type : String) :
    inputLinesIn (unindented ("pub " ++ name ++ ": " ++ type ++ ",")) = [.member name type] := by
  have hcolon : ": ".toList = [':', ' '] := String.toList_ofList
  have hcomma : ",".toList = [','] := String.toList_ofList
  have hline : (name ++ (": " ++ (type ++ ","))).toList =
      name.toList ++ ':' :: ' ' :: (type.toList ++ [',']) := by
    simp [hcolon, hcomma]
  simp only [String.append_assoc]
  rw [inputLinesIn_public, hline, Text.dropWhile_ne_append h, Text.takeWhile_ne_append h]
  dsimp only
  rw [List.tail_cons, List.dropLast_concat, String.ofList_toList, String.ofList_toList]

/-- A member that rows are created with is read with its attributes. -/
theorem read_createMember (validation : Bool) {f : Field} (h : ':' ∉ (ident f.name).toList) :
    (createMember validation f).flatMap (read inputLinesIn) = linesOf f := by
  -- checks are attributes, which are no lines of a member
  have hchecks : (checks f).flatMap (read inputLinesIn) = [] := by
    unfold checks
    split
    · rw [List.flatMap_singleton, read_line]
      exact Says.line (.append (.append (.literal fun _ => rfl)))
    · rw [List.flatMap_singleton, read_when]
      split
      · rw [List.flatMap_singleton, read_line]
        exact Says.line (.literal fun _ => rfl)
      · rfl
  have hmark : inputLinesIn (unindented "#[serde(default)]") = [.optional] :=
    Says.line (.literal fun _ => rfl)
  have hmember := read_member h (createType f)
  unfold createMember
  dsimp only
  simp -implicitDefEqProofs only [toString, List.flatMap_cons, List.flatMap_nil, read_when,
    read_line, hchecks, hmark, ite_self, List.nil_append, List.append_nil]
  have hline : (": " ++ (if (f.isRequiredInput || f.type.nullable) = true then f.type.name
      else "Option<" ++ f.type.inner ++ ">") ++ ",") = ": " ++ createType f ++ "," := rfl
  rw [hline, ← String.append_assoc, ← String.append_assoc, hmember, linesOf]
  cases f.isRequiredInput <;> rfl

/-- The members of the first structure are those before the next one begins. -/
theorem membersFrom_flatMap (fields : List Field) (head : String) (more : List InputLine) :
    membersFrom (fields.flatMap linesOf ++ .struct head :: more) = fields.map memberOf := by
  induction fields with
  | nil => rfl
  | cons f rest ih =>
    rw [List.flatMap_cons, List.append_assoc, List.map_cons, ← ih, memberOf, linesOf]
    cases f.isRequiredInput <;> rfl

/-- A structure is read as its head and then as its members. -/
theorem read_structure {head : String} (h : ':' ∉ head.toList) (body : List Code) :
    (block ("pub " ++ head) body).read inputLinesIn =
      .struct (head ++ " \x7b") :: body.flatMap (read inputLinesIn) := by
  have hclose : inputLinesIn (unindented ("\x7d" ++ "")) = [] :=
    Says.line (.append (.literal fun _ => rfl))
  have hbrace : " \x7b".toList = [' ', '\x7b'] := String.toList_ofList
  have hhead : ':' ∉ (head ++ " \x7b").toList := by
    simpa [hbrace] using h
  rw [block, Code.read_block (by decide) hclose, String.append_assoc, read_struct hhead]
  rfl

/-- Rows are created from a member for each input. -/
theorem createMembers_eq {e : Entity} (h : e.Tame) (b : Blueprint) :
    createMembers b e = e.inputFields.map memberOf := by
  have hfields : ∀ f ∈ e.inputFields, ':' ∉ (ident f.name).toList := fun f hf =>
    not_mem_ident (h.field f (List.mem_filter.1 hf).1) (by decide) (by decide)
  -- the names of the types have no colon, so the heads of both are no members
  have hhead (kind : String) (hkind : ':' ∉ kind.toList) :
      ':' ∉ (kind ++ e.names.entity).toList := by
    rw [String.toList_append, List.mem_append, not_or]
    exact ⟨hkind, h.entity.not_mem (by decide)⟩
  have huse : inputLinesIn (unindented "use serde::Deserialize;") = [] :=
    Says.line (.literal fun _ => rfl)
  have hvalidator : inputLinesIn (unindented "use validator::Validate;") = [] :=
    Says.line (.literal fun _ => rfl)
  have hempty : inputLinesIn (unindented "") = [] := read_literal rfl
  have hderive : inputLinesIn (unindented (if b.features.validation = true then
      "#[derive(Debug, Clone, Deserialize, Validate)]"
        else "#[derive(Debug, Clone, Deserialize)]")) = [] := by
    split
    · exact Says.line (.literal fun _ => rfl)
    · exact Says.line (.literal fun _ => rfl)
  have hmembers : (e.inputFields.flatMap fun f =>
      (createMember b.features.validation f).flatMap (read inputLinesIn)) =
        e.inputFields.flatMap linesOf :=
    List.flatMap_congr fun f hf => read_createMember _ (hfields f hf)
  have hcreate : "pub struct Create" = "pub " ++ "struct Create" := rfl
  have hupdate : "pub struct Update" = "pub " ++ "struct Update" := rfl
  unfold createMembers inputModule
  dsimp only
  simp -implicitDefEqProofs only [toString, List.flatMap_cons, List.flatMap_nil, read_when,
    read_line, huse, hvalidator, hempty, hderive, ite_self, List.nil_append, List.append_nil]
  -- the members of `Create…` are those up to the brace that closes it
  rw [hcreate, hupdate, String.append_assoc, String.append_assoc,
    read_structure (hhead _ (by decide)), read_structure (hhead _ (by decide)),
    List.flatMap_singleton, read_each, hmembers, membersOf, createHead, List.cons_append,
    List.dropWhile_cons_of_neg, List.tail_cons, membersFrom_flatMap]
  simp [toString]

end Rust

-- ---------------------------------------------------------------------------
-- Express
-- ---------------------------------------------------------------------------

namespace TypeScript.Express

/-- How the check of a member ends that may be left out: `.optional(),`. -/
def optionalEnd : List Char :=
  ['.', 'o', 'p', 't', 'i', 'o', 'n', 'a', 'l', '(', ')', ',']

/-- The member that a line of the inputs declares: what stands before the colon is its name. It may
be left out if that has a question mark behind it, or else if its check says so. -/
def membersIn (cs : List Char) : List InputMember :=
  match cs.dropWhile (· != ':') with
  | [] => []
  | _ :: behind =>
    let name := cs.takeWhile (· != ':')
    [{ name := String.ofList (name.takeWhile (· != '?'))
       type := String.ofList behind.tail.dropLast
       optional := name.contains '?' || optionalEnd.isSuffixOf behind }]

/-- The members of the object that rows are created from. -/
def createMembers (b : Blueprint) (e : Entity) : List InputMember :=
  (inputModule b e).flatMap (read membersIn)

/-- The member for an input. -/
def memberOf (b : Blueprint) (f : Field) : InputMember :=
  ⟨f.name, if b.features.validation then check f else f.type.name, !f.isRequiredInput⟩

/-- A member is read as its name and its type, and may be marked as one that can be left out. -/
theorem membersIn_line {name : String} (hcolon : ':' ∉ name.toList) (hblank : ' ' ∉ name.toList)
    (type mark : String) (hmark : mark.length = 1) :
    membersIn (unindented (name ++ ": " ++ type ++ mark)) =
      [⟨String.ofList (name.toList.takeWhile (· != '?')), type,
        name.toList.contains '?' || optionalEnd.isSuffixOf (' ' :: (type ++ mark).toList)⟩] := by
  have hopen : ": ".toList = [':', ' '] := String.toList_ofList
  have hline : (name ++ ": " ++ type ++ mark).toList =
      name.toList ++ ':' :: ' ' :: (type ++ mark).toList := by
    simp [hopen]
  -- the name begins with no blank, so no indentation is taken off
  have hindent : unindented (name ++ ": " ++ type ++ mark) =
      name.toList ++ ':' :: ' ' :: (type ++ mark).toList := by
    rw [unindented, hline]
    cases hname : name.toList with
    | nil => rfl
    | cons c rest =>
      rw [hname, List.mem_cons, not_or] at hblank
      exact List.dropWhile_cons_of_neg (by simpa using Ne.symm hblank.1)
  have htype : String.ofList (type ++ mark).toList.dropLast = type := by
    rw [← String.length_toList] at hmark
    obtain ⟨c, hc⟩ := List.length_eq_one_iff.1 hmark
    rw [String.toList_append, hc, List.dropLast_concat, String.ofList_toList]
  rw [membersIn, hindent, Text.dropWhile_ne_append hcolon, Text.takeWhile_ne_append hcolon]
  dsimp only
  rw [List.tail_cons, htype]

/-- A bound for a length ends otherwise. -/
theorem not_optional_max (n : Nat) :
    ¬ optionalEnd <:+ ' ' :: ("z.string().max(" ++ toString n ++ ")" ++ ",").toList := by
  have hclose : (")" ++ ",").toList = [')', ','] := rfl
  have hline : ' ' :: ("z.string().max(" ++ toString n ++ ")" ++ ",").toList =
      (' ' :: "z.string().max(".toList ++ digits n) ++ [')', ','] := by
    rw [String.append_assoc, String.toList_append, String.toList_append, hclose]
    rfl
  have hend : optionalEnd = ['.', 'o', 'p', 't', 'i', 'o', 'n', 'a', 'l', '('] ++ [')', ','] := rfl
  -- a digit stands where the bracket would
  rintro ⟨before, hsuffix⟩
  rw [hline, hend, ← List.append_assoc, List.append_left_inj] at hsuffix
  have hlast := congrArg List.getLast? hsuffix
  rw [List.getLast?_append_of_ne_nil _ (by simp),
    List.getLast?_append_of_ne_nil _ (digits_ne_nil n)] at hlast
  exact absurd (isDigit_of_mem_digits (List.mem_of_getLast? hlast.symm)) (by decide)

/-- What values of a type are checked for does not say that they may be left out. -/
theorem not_optional_typeCheck (f : Field) :
    ¬ optionalEnd <:+ ' ' :: (typeCheck f ++ ",").toList := by
  unfold typeCheck
  split
  · split <;> decide
  · decide
  · decide
  · decide
  · split
    · decide
    · split
      · exact not_optional_max _
      · decide
  · split <;> decide

/-- A member of a type can be left out if its name is marked. -/
theorem read_typed {f : Field} (h : TameName f.name) :
    membersIn (unindented (f.name ++ (if f.isRequiredInput then "" else "?") ++
      (": " ++ f.type.name ++ ";"))) = [⟨f.name, f.type.name, !f.isRequiredInput⟩] := by
  have hquestion : "?".toList = ['?'] := String.toList_ofList
  have hsemicolon : ";".toList = [';'] := String.toList_ofList
  have hname (c : Char) (hc : ¬ Tame c) (hne : c ≠ '?') :
      c ∉ (f.name ++ if f.isRequiredInput then "" else "?").toList := by
    rw [String.toList_append, List.mem_append, not_or]
    refine ⟨h.not_mem hc, ?_⟩
    split
    · exact List.not_mem_nil
    · simpa [hquestion] using hne
  -- the line ends in the type, which is not the mark of an optional schema
  have hend : optionalEnd.isSuffixOf (' ' :: (f.type.name ++ ";").toList) = false := by
    rw [Bool.eq_false_iff, Ne, List.isSuffixOf_iff_suffix, String.toList_append, hsemicolon,
      ← List.cons_append]
    intro hsuffix
    have hlast := hsuffix.getLast (by decide)
    rw [List.getLast_append_singleton] at hlast
    exact absurd hlast (by decide)
  -- the name stands before the question mark, which is there for an optional member
  have hstop : (f.name ++ if f.isRequiredInput then "" else "?").toList.takeWhile (· != '?') =
        f.name.toList ∧
      (f.name ++ if f.isRequiredInput then "" else "?").toList.contains '?' =
        !f.isRequiredInput := by
    have hnone : '?' ∉ f.name.toList := h.not_mem (by decide)
    cases f.isRequiredInput with
    | true =>
      rw [if_pos rfl, String.append_empty]
      exact ⟨Text.takeWhile_ne_of_not_mem hnone, by simpa using hnone⟩
    | false =>
      rw [if_neg Bool.false_ne_true, String.toList_append, hquestion]
      exact ⟨Text.takeWhile_ne_append hnone [], by simp⟩
  rw [← String.append_assoc, ← String.append_assoc, membersIn_line (hname _ (by decide) (by decide))
    (hname _ (by decide) (by decide)) _ _ rfl, hend, Bool.or_false, hstop.1, hstop.2,
    String.ofList_toList]

/-- A member of a schema can be left out if its check says so. -/
theorem read_checked {f : Field} (h : TameName f.name) :
    membersIn (unindented (f.name ++ ": " ++ check f ++ ",")) =
      [⟨f.name, check f, !f.isRequiredInput⟩] := by
  have hnone : '?' ∉ f.name.toList := h.not_mem (by decide)
  have hcontains : f.name.toList.contains '?' = false := by simpa using hnone
  have hend : optionalEnd.isSuffixOf (' ' :: (check f ++ ",").toList) = !f.isRequiredInput := by
    -- a required input ends in its own check, any other in the mark of an optional one
    cases hrequired : f.isRequiredInput with
    | true =>
      have hnullable : f.type.nullable = false := by
        simp only [Field.isRequiredInput, Bool.and_eq_true, Bool.not_eq_true'] at hrequired
        exact hrequired.1.2
      have hcheck : check f = typeCheck f := by
        simp [check, hrequired, hnullable]
      rw [hcheck, Bool.not_true, Bool.eq_false_iff, Ne, List.isSuffixOf_iff_suffix]
      exact not_optional_typeCheck f
    | false =>
      have hmark : (".optional()" ++ ",").toList = optionalEnd := rfl
      rw [Bool.not_false, List.isSuffixOf_iff_suffix, check, hrequired, String.append_assoc,
        String.toList_append]
      exact (List.suffix_append _ _).trans (List.suffix_cons _ _)
  rw [membersIn_line (h.not_mem (by decide)) (h.not_mem (by decide)) _ _ rfl,
    Text.takeWhile_ne_of_not_mem hnone, hcontains, hend, String.ofList_toList, Bool.false_or]

/-- A line without a colon is no member. -/
theorem membersIn_of_not_mem {line : String} (h : ':' ∉ line.toList) :
    membersIn (unindented line) = [] := by
  have hnone : ':' ∉ unindented line := fun hmem => h ((List.dropWhile_sublist _).subset hmem)
  rw [membersIn, Text.dropWhile_ne_of_not_mem hnone]

/-- No colon stands in either part. -/
theorem not_mem_append {a b : String} (ha : ':' ∉ a.toList) (hb : ':' ∉ b.toList) :
    ':' ∉ (a ++ b).toList := by
  rw [String.toList_append, List.mem_append, not_or]
  exact ⟨ha, hb⟩

section Objects

variable {b : Blueprint} {e : Entity}

/-- The schema of an input has one member for each input. -/
theorem read_schema (h : e.Tame) (hvalidation : b.features.validation = true) :
    (call ("export const create" ++ e.names.entity ++ "Schema = z.object")
      [each e.inputFields fun f => [f.name ++ ": " ++ check f ++ ","]] ";").read membersIn =
        e.inputFields.map (memberOf b) := by
  have hentity : ':' ∉ e.names.entity.toList := h.entity.not_mem (by decide)
  have hopen : membersIn (unindented
      ("export const create" ++ e.names.entity ++ "Schema = z.object" ++ "(\x7b")) = [] :=
    membersIn_of_not_mem (not_mem_append (not_mem_append
      (not_mem_append (by decide) hentity) (by decide)) (by decide))
  have hclose : membersIn (unindented ("\x7d)" ++ ";")) = [] := membersIn_of_not_mem (by decide)
  -- each member stands on one line, between the lines that open and close the schema
  have hmember (f : Field) (hf : f ∈ e.inputFields) :
      membersIn (unindented (f.name ++ ": " ++ check f ++ ",")) = [memberOf b f] := by
    rw [read_checked (h.field f (List.mem_filter.1 hf).1), memberOf, hvalidation]
    rfl
  have hblanks : ∀ c ∈ "  ".toList, c = ' ' := by decide
  rw [call, read_all]
  simp -implicitDefEqProofs only [List.flatMap_cons, List.flatMap_nil, read_line, hopen, hclose,
    read_indent membersIn hblanks, read_each, List.append_nil, List.nil_append]
  rw [List.flatMap_congr hmember]
  exact List.flatMap_pure_eq_map _ _

theorem read_interface (h : e.Tame) (hvalidation : b.features.validation = false) :
    (block ("export interface Create" ++ e.names.entity ++ "Dto")
      [each e.inputFields fun f => [f.name ++ (if f.isRequiredInput then "" else "?") ++
        (": " ++ f.type.name ++ ";")]]).read membersIn = e.inputFields.map (memberOf b) := by
  have hentity : ':' ∉ e.names.entity.toList := h.entity.not_mem (by decide)
  have hopen : membersIn (unindented
      ("export interface Create" ++ e.names.entity ++ "Dto" ++ " \x7b")) = [] :=
    membersIn_of_not_mem (not_mem_append (not_mem_append
      (not_mem_append (by decide) hentity) (by decide)) (by decide))
  have hclose : membersIn (unindented ("\x7d" ++ "")) = [] := membersIn_of_not_mem (by decide)
  have hmember (f : Field) (hf : f ∈ e.inputFields) :
      membersIn (unindented (f.name ++ (if f.isRequiredInput then "" else "?") ++
        (": " ++ f.type.name ++ ";"))) = [memberOf b f] := by
    rw [read_typed (h.field f (List.mem_filter.1 hf).1), memberOf, hvalidation]
    rfl
  rw [block, Code.read_block (by decide) hclose, List.flatMap_singleton, read_each, hopen]
  simp only [List.flatMap_singleton, read_line, List.nil_append]
  rw [List.flatMap_congr hmember]
  exact List.flatMap_pure_eq_map _ _

/-- Rows are created from a member for each input. -/
theorem createMembers_eq (h : e.Tame) (b : Blueprint) :
    createMembers b e = e.inputFields.map (memberOf b) := by
  have hentity : ':' ∉ e.names.entity.toList := h.entity.not_mem (by decide)
  have hline (before middle behind : String) (hbefore : ':' ∉ before.toList)
      (hmiddle : ':' ∉ middle.toList) (hbehind : ':' ∉ behind.toList) : membersIn (unindented
        (before ++ e.names.entity ++ middle ++ e.names.entity ++ behind)) = [] :=
    membersIn_of_not_mem (not_mem_append (not_mem_append (not_mem_append
      (not_mem_append hbefore hentity) hmiddle) hentity) hbehind)
  have hempty : membersIn (unindented "") = [] := read_literal rfl
  have hzod : membersIn (unindented "import \x7b z \x7d from 'zod';") = [] :=
    membersIn_of_not_mem (by decide)
  unfold createMembers inputModule
  -- the members stand in the schema where inputs are validated, else in the interface
  dsimp only
  cases hvalidation : b.features.validation with
  | true =>
    simp -implicitDefEqProofs only [toString, if_true, List.flatMap_cons, List.flatMap_nil,
      read_line, hempty, hzod, read_schema h hvalidation, List.nil_append, List.append_nil]
    rw [hline _ _ _ (by decide) (by decide) (by decide),
      hline _ _ _ (by decide) (by decide) (by decide),
      hline _ _ _ (by decide) (by decide) (by decide)]
    simp only [List.append_nil]
  | false =>
    simp -implicitDefEqProofs only [toString, Bool.false_eq_true, if_false, List.flatMap_cons,
      List.flatMap_nil, read_line, hempty, read_interface h hvalidation, List.nil_append,
      List.append_nil]
    rw [hline _ _ _ (by decide) (by decide) (by decide), List.append_nil]

end Objects

end TypeScript.Express

end CrudGen
