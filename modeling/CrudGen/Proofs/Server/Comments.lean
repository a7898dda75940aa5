import Mathlib.Algebra.GroupWithZero.Nat
import CrudGen.Proofs.Entity.Build
import CrudGen.Proofs.Schema.Dialects
import CrudGen.Proofs.Text.Pieces
import CrudGen.Server.Go.Emitter
import CrudGen.Server.Rust.Emitter
import CrudGen.Target.BuiltIn

/-!
# Models — what comments say

The members of a model come with the comments of their columns, each behind a mark that makes a
comment of it up to the end of its line. Nothing else in a model comes from comments. A comment of
several lines, however, is marked on the first of them only, and what it says on the others is code.

Main results:

* `SameButComments.append`, `SameButComments.comment` — lines that are the same but for comments.
* `entityModels_uncommented` — nothing about an entity depends on what comments say.
* `lines_rowModule`, `lines_modelSource` — the lines of a model.
* `comments_confined` — two models of one entity have as many lines as their comments have breaks,
  and differ in comments only if there are none.
* `comment_becomes_code` — a comment of two lines.
-/

namespace CrudGen

-- ---------------------------------------------------------------------------
-- Lines
-- ---------------------------------------------------------------------------

/-- The lines of a text. -/
def Text.linesOf (s : String) : List (List Char) :=
  splitAll (· == '\n') s.toList

/-- How many lines some texts have beyond one each. -/
def Text.breaks (texts : List String) : Nat :=
  (texts.map (·.toList.count '\n')).sum

/-- Whether a line is a comment: behind blanks and tabs it begins with a mark. -/
def Text.IsComment (mark : String) (line : List Char) : Prop :=
  mark.toList <+: line.dropWhile fun c => c == ' ' || c == '\t'

/-- Lines that are the same but for what comments say. Every break in the text of a comment makes one
line more, and if there is none, only comments differ. -/
structure SameButComments (mark : String) (comments comments' : List String)
    (lines lines' : List (List Char)) : Prop where
  count  : lines.length + Text.breaks comments' = lines'.length + Text.breaks comments
  others : Text.breaks comments = 0 → Text.breaks comments' = 0 →
             List.Forall₂ (fun l l' => l = l' ∨ Text.IsComment mark l ∧ Text.IsComment mark l')
               lines lines'

open Text

/-- The breaks of texts in a row are those of both parts. -/
theorem breaks_append (texts more : List String) :
    breaks (texts ++ more) = breaks texts + breaks more := by
  rw [breaks, List.map_append, List.sum_append, breaks, breaks]

/-- A text has one line more than it has breaks. -/
theorem length_linesOf (s : String) : (linesOf s).length = s.toList.count '\n' + 1 := by
  rw [linesOf]
  induction s.toList with
  | nil => rfl
  | cons c rest ih =>
    rw [splitAll]
    split
    · rename_i hbreak
      simpa [eq_of_beq hbreak] using ih
    · rename_i hplain
      cases hrest : splitAll (· == '\n') rest with
      | nil => exact absurd hrest (splitAll_ne_nil rest)
      | cons piece more =>
        rw [hrest] at ih
        have hne : c ≠ '\n' := by simpa using hplain
        rw [List.count_cons_of_ne hne, ← ih]
        rfl

/-- A text without a break is one line. -/
theorem linesOf_of_not_mem {s : String} (h : '\n' ∉ s.toList) : linesOf s = [s.toList] :=
  splitAll_eq_singleton fun _ hc => beq_eq_false_iff_ne.2 fun hbreak => h (hbreak ▸ hc)

namespace SameButComments

variable {mark : String} {cs cs' ds ds' : List String} {ls ls' ms ms' : List (List Char)}

theorem refl (mark : String) (ls : List (List Char)) : SameButComments mark [] [] ls ls :=
  ⟨rfl, fun _ _ => List.forall₂_same.2 fun _ _ => .inl rfl⟩

/-- Lines one after the other are the same but for comments if each part is. -/
theorem append (h : SameButComments mark cs cs' ls ls') (h' : SameButComments mark ds ds' ms ms') :
    SameButComments mark (cs ++ ds) (cs' ++ ds') (ls ++ ms) (ls' ++ ms') := by
  have hcount := h.count
  have hcount' := h'.count
  constructor
  · rw [List.length_append, List.length_append, breaks_append, breaks_append]
    omega
  · intro hnone hnone'
    rw [breaks_append, Nat.add_eq_zero_iff] at hnone hnone'
    exact List.rel_append (h.others hnone.1 hnone'.1) (h'.others hnone.2 hnone'.2)

/-- A comment behind a start on one line that makes it one. -/
theorem comment {start : String} (hstart : '\n' ∉ start.toList)
    (hmark : ∀ rest, IsComment mark (start.toList ++ rest)) (c c' : String) :
    SameButComments mark [c] [c'] (linesOf (start ++ c)) (linesOf (start ++ c')) := by
  have hcount : ∀ c, (linesOf (start ++ c)).length = breaks [c] + 1 := by
    intro c
    rw [length_linesOf, String.toList_append, List.count_append, List.count_eq_zero.2 hstart,
      Nat.zero_add]
    rfl
  -- as many lines as breaks and one more; without a break it is one comment line
  constructor
  · rw [hcount, hcount]
    omega
  · intro hnone hnone'
    have hline {c : String} (h : breaks [c] = 0) :
        linesOf (start ++ c) = [start.toList ++ c.toList] := by
      have hc : '\n' ∉ c.toList := List.count_eq_zero.1 h
      rw [← String.toList_append]
      refine linesOf_of_not_mem ?_
      rw [String.toList_append, List.mem_append, not_or]
      exact ⟨hstart, hc⟩
    rw [hline hnone, hline hnone']
    exact .cons (.inr ⟨hmark _, hmark _⟩) .nil

theorem flatMap {α : Type} {comments : α → List String} {lines : α → List (List Char)}
    {xs ys : List α} (h : List.Forall₂ (fun x y =>
      SameButComments mark (comments x) (comments y) (lines x) (lines y)) xs ys) :
    SameButComments mark (xs.flatMap comments) (ys.flatMap comments) (xs.flatMap lines)
      (ys.flatMap lines) := by
  induction h with
  | nil => exact refl mark []
  | cons hxy _ ih => exact hxy.append ih

end SameButComments

-- ---------------------------------------------------------------------------
-- Written code
-- ---------------------------------------------------------------------------

namespace Code

/-- A line one step further in, unless it is empty. -/
def stepped (step line : String) : String :=
  if line.isEmpty then line else step ++ line

/-- A line that is not empty stands one step further in. -/
theorem stepped_append {step start : String} (h : start ≠ "") (rest : String) :
    stepped step (start ++ rest) = step ++ start ++ rest := by
  rw [stepped, if_neg, String.append_assoc]
  simp [h]

/-- The lines of pieces are those of each piece. -/
@[simp] theorem lines_all (pieces : List Code) :
    (all pieces).lines = pieces.flatMap (·.lines) :=
  rfl

/-- The lines of a loop are those of what each element gives. -/
@[simp] theorem lines_each {α : Type} (xs : List α) (pieces : α → List Code) :
    (each xs pieces).lines = xs.flatMap fun x => (pieces x).flatMap (·.lines) :=
  List.flatMap_assoc

/-- A piece that may be missing has lines if it is there. -/
@[simp] theorem lines_whenSome {α : Type} (x : Option α) (pieces : α → List Code) :
    (whenSome x pieces).lines = x.toList.flatMap fun a => (pieces a).flatMap (·.lines) :=
  lines_each _ _

/-- A block has a head, its lines one step further in, and a tail. -/
@[simp] theorem lines_block (step head : String) (body : List Code) (tail : String) :
    (block step head body tail).lines =
      (head ++ " \x7b") :: ((body.flatMap (·.lines)).map (stepped step) ++ ["\x7d" ++ tail]) :=
  rfl

/-- The lines of written code are those of each of its lines, with an empty one at the end. -/
theorem linesOf_text (pieces : List Code) :
    linesOf (text pieces) = (all pieces).lines.flatMap linesOf ++ [[]] := by
  rw [linesOf, text]
  induction (all pieces).lines with
  | nil => rfl
  | cons line rest ih =>
    have hbreak : "\n".toList = ['\n'] := String.toList_ofList
    rw [List.map_cons, String.join_cons, String.toList_append, String.toList_append, hbreak,
      List.append_assoc, List.singleton_append, splitAll_append rfl, ih, List.flatMap_cons,
      List.append_assoc]
    rfl

end Code

-- ---------------------------------------------------------------------------
-- Entities without comments
-- ---------------------------------------------------------------------------

/-- A column whose comment, if there is one, says nothing. -/
def Column.uncommented (c : Column) : Column :=
  { c with comment := c.comment.map fun _ => "" }

/-- No definition but that of a field looks at a comment. -/
theorem immaterial_uncommented : Column.Immaterial Column.uncommented :=
  ⟨fun _ => rfl, fun _ => rfl⟩

/-- A catalog whose comments say nothing. -/
def Catalog.uncommented (c : Catalog) : Catalog :=
  c.mapColumns Column.uncommented

/-- A field whose comment, if there is one, says nothing. -/
def Field.uncommented (f : Field) : Field :=
  { f with comment := f.comment.map fun _ => "" }

/-- An entity whose comments say nothing. -/
def Entity.uncommented (e : Entity) : Entity :=
  { e with
    table := e.table.mapColumns Column.uncommented
    fields := e.fields.map Field.uncommented }

/-- What the comments of an entity say. -/
def Entity.comments (e : Entity) : List String :=
  e.fields.flatMap (·.comment.toList)

section MapColumns

variable (f : Column → Column) (s : Schema)

/-- A table is found whatever is changed in its columns. -/
theorem Schema.table?_mapColumns (name : String) :
    (s.mapColumns f).table? name = (s.table? name).map (Table.mapColumns f) :=
  List.find?_map

/-- A junction is one by its keys, which changed columns leave alone. -/
theorem Schema.isJunction_mapColumns (name : String) :
    (s.mapColumns f).isJunction name = s.isJunction name := by
  rw [isJunction, isJunction, kind?, kind?, classified, classified, mapColumns, List.zip_map_left,
    List.find?_map, Option.map_map]
  rfl

/-- The order of entities is that of tables, which changed columns leave alone. -/
theorem Schema.orderedEntities_mapColumns :
    (s.mapColumns f).orderedEntities = s.orderedEntities.map (Table.mapColumns f) := by
  rw [orderedEntities, orderedEntities, List.map_filterMap]
  exact List.filterMap_congr fun name _ => s.table?_mapColumns f name

/-- Names are assigned by the names of tables. -/
theorem NameTable.assign_mapColumns (p : Profile) : assign (s.mapColumns f) p = assign s p := by
  rw [assign, assign, Schema.orderedEntities_mapColumns, List.foldl_map]
  rfl

/-- What a junction refers to is told by foreign keys. -/
theorem Schema.referenced_mapColumns (junction : String) (columns : List String) :
    (s.mapColumns f).referenced junction columns = s.referenced junction columns := by
  rw [referenced, referenced, table?_mapColumns]
  cases s.table? junction <;> rfl

/-- Relations are told by foreign keys and names. -/
theorem relationsFrom_mapColumns (p : Profile) (names : NameTable) (used : List String)
    (views : List RelationView) :
    relationsFrom (s.mapColumns f) p names used views = relationsFrom s p names used views := by
  have hrelation (v : RelationView) (name : String) :
      v.relation (s.mapColumns f) p names name = v.relation s p names name := by
    simp only [RelationView.relation, Schema.referenced_mapColumns]
    rfl
  induction views generalizing used with
  | nil => rfl
  | cons v rest ih => rw [relationsFrom, relationsFrom, hrelation, ih]

end MapColumns

/-- An entity without comments is made of a table without comments. -/
theorem build_uncommented (s : Schema) (p : Profile) (names : NameTable) (t : Table) :
    Entity.build (s.mapColumns Column.uncommented) p names (t.mapColumns Column.uncommented) =
      (Entity.build s p names t).uncommented := by
  have hfields : (t.mapColumns Column.uncommented).columns.map
      (Field.ofColumn p (t.mapColumns Column.uncommented)) =
        (t.columns.map (Field.ofColumn p t)).map Field.uncommented := by
    rw [Table.mapColumns, List.map_map, List.map_map]
    rfl
  have hnames : ((t.columns.map (Field.ofColumn p t)).map Field.uncommented).map (·.name) =
      (t.columns.map (Field.ofColumn p t)).map (·.name) := List.map_map
  rw [Entity.build, Entity.build, hfields, hnames, relationsFrom_mapColumns]
  simp only [Schema.isJunction_mapColumns]
  rfl

theorem entityModels_uncommented (s : Schema) (p : Profile) :
    (s.mapColumns Column.uncommented).entityModels p = (s.entityModels p).map Entity.uncommented := by
  rw [Schema.entityModels, Schema.entityModels, NameTable.assign_mapColumns,
    Schema.orderedEntities_mapColumns, List.map_map, List.map_map]
  exact List.map_congr_left fun t _ => build_uncommented s p _ t

/-- A blueprint whose comments say nothing. -/
def Blueprint.uncommented (b : Blueprint) : Blueprint :=
  { b with
    schema := b.schema.mapColumns Column.uncommented
    entities := b.entities.map Entity.uncommented }

theorem ofSchema_uncommented (c : Catalog) (p : Profile) (toggles : FeatureToggles)
    (project : String) : Blueprint.ofSchema (Schema.infer c.uncommented) p toggles project =
      (Blueprint.ofSchema (Schema.infer c) p toggles project).uncommented := by
  rw [Catalog.uncommented, Schema.infer_mapColumns immaterial_uncommented, Blueprint.ofSchema,
    entityModels_uncommented]
  rfl

/-- Members are called the same, whatever comments say. -/
theorem fieldName_uncommented (b : Blueprint) (table column : String) :
    b.uncommented.fieldName table column = b.fieldName table column := by
  have hentity : b.uncommented.entity? table = (b.entity? table).map Entity.uncommented :=
    List.find?_map
  have hfield (e : Entity) : e.uncommented.field? column = (e.field? column).map Field.uncommented :=
    List.find?_map
  rw [Blueprint.fieldName, Blueprint.fieldName, hentity]
  cases b.entity? table with
  | none => rfl
  | some e =>
    rw [Option.map_some, Option.bind_some, Option.bind_some, hfield, Option.map_map]
    rfl

-- ---------------------------------------------------------------------------
-- Members with comments
-- ---------------------------------------------------------------------------

/-- The lines of some members, each with its comment before it. -/
def documented (start : String) (member : Field → List String) (fields : List Field) :
    List String :=
  fields.flatMap fun f => f.comment.toList.map (start ++ ·) ++ member f

/-- Every line of a comment, the first one behind the start, is a line of its own. -/
theorem mem_documented {start : String} {member : Field → List String} {fields : List Field}
    {comment : String} (h : comment ∈ fields.flatMap (·.comment.toList)) {line : List Char}
    (hline : line ∈ linesOf (start ++ comment)) :
    line ∈ (documented start member fields).flatMap linesOf := by
  obtain ⟨f, hf, hcomment⟩ := List.mem_flatMap.1 h
  exact List.mem_flatMap.2 ⟨start ++ comment, List.mem_flatMap.2
    ⟨f, hf, List.mem_append_left _ (List.mem_map_of_mem hcomment)⟩, hline⟩

/-- Members with comments differ in what these say only. -/
theorem sameBut_documented {mark start : String} (hstart : '\n' ∉ start.toList)
    (hmark : ∀ rest, IsComment mark (start.toList ++ rest)) {member : Field → List String}
    (hmember : ∀ f, member f.uncommented = member f) {fields fields' : List Field}
    (h : fields.map Field.uncommented = fields'.map Field.uncommented) :
    SameButComments mark (fields.flatMap (·.comment.toList)) (fields'.flatMap (·.comment.toList))
      ((documented start member fields).flatMap linesOf)
      ((documented start member fields').flatMap linesOf) := by
  -- the fields go in step: the same code, and a comment on both sides or on neither
  rw [documented, documented, List.flatMap_assoc, List.flatMap_assoc]
  refine SameButComments.flatMap ((map_eq_map_iff_forall₂.1 h).imp fun f f' hsame => ?_)
  have hsays : f.comment.map (fun _ => "") = f'.comment.map fun _ => "" :=
    congrArg Field.comment hsame
  have hcode : member f = member f' := by
    rw [← hmember f, hsame, hmember f']
  rw [List.flatMap_append, List.flatMap_append, hcode]
  have hcomment : SameButComments mark f.comment.toList f'.comment.toList
      ((f.comment.toList.map (start ++ ·)).flatMap linesOf)
      ((f'.comment.toList.map (start ++ ·)).flatMap linesOf) := by
    cases hc : f.comment with
    | none =>
      rw [hc] at hsays
      rw [Option.map_eq_none_iff.1 hsays.symm]
      exact .refl mark []
    | some c =>
      rw [hc] at hsays
      obtain ⟨c', hc', -⟩ := Option.map_eq_some_iff.1 hsays.symm
      rw [hc', Option.toList_some, Option.toList_some, List.map_singleton, List.map_singleton,
        List.flatMap_singleton, List.flatMap_singleton]
      exact .comment hstart hmark c c'
  have hall := hcomment.append (.refl mark ((member f').flatMap linesOf))
  rwa [List.append_nil, List.append_nil] at hall

/-- A line between others is a line of the text that they make. -/
theorem mem_framed {lines before after : List String} {pieces : List Code}
    (hlines : (Code.all pieces).lines = before ++ lines ++ after) {line : List Char}
    (h : line ∈ lines.flatMap linesOf) : line ∈ linesOf (Code.text pieces) := by
  rw [Code.linesOf_text, hlines, List.flatMap_append, List.flatMap_append]
  exact List.mem_append_left _ (List.mem_append_left _ (List.mem_append_right _ h))

/-- Code around members with comments. -/
theorem sameBut_framed {mark : String} {cs cs' : List String} {lines lines' : List String}
    (h : SameButComments mark cs cs' (lines.flatMap linesOf) (lines'.flatMap linesOf))
    {pieces pieces' : List Code} {before after : List String}
    (hlines : (Code.all pieces).lines = before ++ lines ++ after)
    (hlines' : (Code.all pieces').lines = before ++ lines' ++ after) :
    SameButComments mark cs cs' (linesOf (Code.text pieces)) (linesOf (Code.text pieces')) := by
  rw [Code.linesOf_text, Code.linesOf_text, hlines, hlines']
  simp only [List.flatMap_append]
  have hall := (((SameButComments.refl mark (before.flatMap linesOf)).append h).append
    (.refl mark (after.flatMap linesOf))).append (.refl mark [[]])
  simpa using hall
-- ---------------------------------------------------------------------------
-- Rows
-- ---------------------------------------------------------------------------

namespace Rust

open Code

/-- The lines of a member of a row without its comment. -/
def memberLines (f : Field) : List String :=
  (indent "    " (rowMember f).tail).lines

/-- The lines of a row before its members. -/
def linesBefore (e : Entity) : List String :=
  (all (rowModule e).dropLast).lines ++ [s!"pub struct {e.names.entity}" ++ " \x7b"]

/-- A member of a row is its comment, if it has one, and lines without it. -/
theorem lines_rowMember (f : Field) :
    ((rowMember f).flatMap (·.lines)).map (stepped "    ") =
      f.comment.toList.map ("    /// " ++ ·) ++ memberLines f := by
  have hcomment (c : String) : stepped "    " ("/// " ++ c) = "    /// " ++ c :=
    stepped_append (by decide) c
  have hmember : memberLines f = ((rowMember f).tail.flatMap (·.lines)).map (stepped "    ") := rfl
  rw [hmember, rowMember, List.tail_cons, List.flatMap_cons, List.map_append]
  refine congrArg (· ++ _) ?_
  cases f.comment with
  | none => rfl
  | some c => exact congrArg (fun line => [line]) (hcomment c)

/-- The module of a row is its members between lines that no comment is part of. -/
theorem lines_rowModule (e : Entity) : (all (rowModule e)).lines =
    linesBefore e ++ documented "    /// " memberLines e.fields ++ ["\x7d"] := by
  have hfields : (e.fields.flatMap fun f => (rowMember f).flatMap (·.lines)).map (stepped "    ") =
      documented "    /// " memberLines e.fields := by
    rw [List.map_flatMap]
    exact List.flatMap_congr fun f _ => lines_rowMember f
  have hmodule : rowModule e = (rowModule e).dropLast ++
      [block s!"pub struct {e.names.entity}" [each e.fields rowMember]] := rfl
  rw [hmodule, lines_all, List.flatMap_append, List.flatMap_singleton, block, lines_block,
    List.flatMap_singleton, lines_each, hfields, linesBefore, lines_all, String.append_empty]
  simp only [List.append_assoc, List.cons_append, List.nil_append]

/-- A comment of a row stands in its module. -/
theorem mem_rowModule {e : Entity} {comment : String} (h : comment ∈ e.comments) {line : List Char}
    (hline : line ∈ linesOf ("    /// " ++ comment)) : line ∈ linesOf (Code.text (rowModule e)) :=
  mem_framed (lines_rowModule e) (mem_documented h hline)

/-- Rows of one entity but for comments. -/
theorem sameBut_rowModule {e e' : Entity} (h : e.uncommented = e'.uncommented) :
    SameButComments "///" e.comments e'.comments (linesOf (Code.text (rowModule e)))
      (linesOf (Code.text (rowModule e'))) := by
  have hmark (rest : List Char) : IsComment "///" ("    /// ".toList ++ rest) := ⟨' ' :: rest, rfl⟩
  have hmember (f : Field) : memberLines f.uncommented = memberLines f := rfl
  have hfields := sameBut_documented (by decide) hmark hmember
    (congrArg Entity.fields h : e.fields.map Field.uncommented = e'.fields.map Field.uncommented)
  have hbefore : linesBefore e = linesBefore e' :=
    calc linesBefore e
      _ = linesBefore e.uncommented := rfl
      _ = linesBefore e'.uncommented := by rw [h]
      _ = linesBefore e' := rfl
  refine sameBut_framed hfields (lines_rowModule e) ?_
  rw [hbefore]
  exact lines_rowModule e'

end Rust

-- ---------------------------------------------------------------------------
-- Models
-- ---------------------------------------------------------------------------

namespace Go

open Code

/-- A member of a model. -/
def modelMember (f : Field) : List Code := [
  whenSome f.comment fun comment => [s!"// {comment}"],
  s!"{f.name} {f.type.name} `gorm:\"" ++ columnTag f ++ s!"\" json:\"{f.column}\"`"]

/-- The lines of a member of a model without its comment. -/
def memberLines (f : Field) : List String :=
  (indent "\t" (modelMember f).tail).lines

/-- The lines of a model before its members. -/
def linesBefore (b : Blueprint) (e : Entity) : List String :=
  (all (sourceOf b "models" (typeImports b e.fields) [])).lines ++
    [s!"type {e.names.entity} struct" ++ " \x7b"]

/-- The lines of a model behind its members. -/
def linesBehind (b : Blueprint) (e : Entity) : List String :=
  (indent "\t" [when (!e.relations.isEmpty) [
    "", each e.relations fun r => [relationMember b e r]]]).lines ++
      (all ["\x7d", "", block s!"func ({e.names.entity}) TableName() string" [
        "return " ++ quoted e.table.name]]).lines

/-- What stands before the members is written without looking at comments. -/
theorem linesBefore_uncommented (b : Blueprint) (e : Entity) :
    linesBefore b.uncommented e.uncommented = linesBefore b e := by
  have himports : typeImports b.uncommented e.uncommented.fields = typeImports b e.fields := by
    rw [typeImports, Entity.uncommented, List.filterMap_map]
    rfl
  rw [linesBefore, himports]
  rfl

theorem linesBehind_uncommented (b : Blueprint) (e : Entity) :
    linesBehind b.uncommented e.uncommented = linesBehind b e := by
  have hnames (table : String) (columns : List String) :
      memberNames b.uncommented table columns = memberNames b table columns := by
    rw [memberNames, memberNames]
    exact congrArg _ (List.map_congr_left fun c _ => fieldName_uncommented b table c)
  have hrelation (r : Relation) :
      relationMember b.uncommented e.uncommented r = relationMember b e r := by
    simp only [relationMember, relationTag, hnames]
    rfl
  rw [linesBehind]
  simp only [hrelation]
  rfl

/-- A member of a model is its comment, if it has one, and lines without it. -/
theorem lines_modelMember (f : Field) : ((modelMember f).flatMap (·.lines)).map (stepped "\t") =
    f.comment.toList.map ("\t// " ++ ·) ++ memberLines f := by
  have hcomment (c : String) : stepped "\t" ("// " ++ c) = "\t// " ++ c :=
    stepped_append (by decide) c
  have hmember : memberLines f = ((modelMember f).tail.flatMap (·.lines)).map (stepped "\t") := rfl
  rw [hmember, modelMember, List.tail_cons, List.flatMap_cons, List.map_append]
  refine congrArg (· ++ _) ?_
  cases f.comment with
  | none => rfl
  | some c => exact congrArg (fun line => [line]) (hcomment c)

/-- What a source begins with does not depend on its body. -/
theorem lines_sourceOf (b : Blueprint) (name : String) (paths : List String) (body : List Code) :
    (all (sourceOf b name paths body)).lines =
      (all (sourceOf b name paths [])).lines ++ body.flatMap (·.lines) := by
  have hbody (body : List Code) : sourceOf b name paths body =
      (sourceOf b name paths []).dropLast ++ [all body] := rfl
  rw [hbody, hbody []]
  simp

/-- A model is its members between lines that no comment is part of. -/
theorem lines_modelSource (b : Blueprint) (e : Entity) : (all (modelSource b e)).lines =
    linesBefore b e ++ documented "\t// " memberLines e.fields ++ linesBehind b e := by
  have hfields : (e.fields.flatMap fun f => (modelMember f).flatMap (·.lines)).map (stepped "\t") =
      documented "\t// " memberLines e.fields := by
    rw [List.map_flatMap]
    exact List.flatMap_congr fun f _ => lines_modelMember f
  have hmodel : modelSource b e = sourceOf b "models" (typeImports b e.fields) [
      block s!"type {e.names.entity} struct" [
        each e.fields modelMember,
        when (!e.relations.isEmpty) ["", each e.relations fun r => [relationMember b e r]]],
      "",
      block s!"func ({e.names.entity}) TableName() string" [
        "return " ++ quoted e.table.name]] := rfl
  rw [hmodel, lines_sourceOf, List.flatMap_cons, block, lines_block, List.flatMap_cons, lines_each,
    List.map_append, hfields, linesBefore, linesBehind, String.append_empty]
  simp only [List.append_assoc, List.cons_append, List.nil_append]
  rfl

/-- A comment of a model stands in its source. -/
theorem mem_modelSource (b : Blueprint) {e : Entity} {comment : String} (h : comment ∈ e.comments)
    {line : List Char} (hline : line ∈ linesOf ("\t// " ++ comment)) :
    line ∈ linesOf (Code.text (modelSource b e)) :=
  mem_framed (lines_modelSource b e) (mem_documented h hline)

/-- Models of one entity but for comments. -/
theorem sameBut_modelSource {b b' : Blueprint} (hb : b.uncommented = b'.uncommented) {e e' : Entity}
    (h : e.uncommented = e'.uncommented) :
    SameButComments "//" e.comments e'.comments (linesOf (Code.text (modelSource b e)))
      (linesOf (Code.text (modelSource b' e'))) := by
  have hmark (rest : List Char) : IsComment "//" ("\t// ".toList ++ rest) := ⟨' ' :: rest, rfl⟩
  have hmember (f : Field) : memberLines f.uncommented = memberLines f := rfl
  have hfields := sameBut_documented (by decide) hmark hmember
    (congrArg Entity.fields h : e.fields.map Field.uncommented = e'.fields.map Field.uncommented)
  have hbefore : linesBefore b e = linesBefore b' e' := by
    rw [← linesBefore_uncommented, hb, h, linesBefore_uncommented]
  have hbehind : linesBehind b e = linesBehind b' e' := by
    rw [← linesBehind_uncommented, hb, h, linesBehind_uncommented]
  refine sameBut_framed hfields (lines_modelSource b e) ?_
  rw [hbefore, hbehind]
  exact lines_modelSource b' e'

end Go

-- ---------------------------------------------------------------------------
-- Comments
-- ---------------------------------------------------------------------------

/-- **Comments.** Of catalogs that differ in what comments say only, come model files with the same
paths, for every entity and any target. A Rust or Go model has one line more for every break in the
text of a comment; and if no comment has a break, two files differ in comments only. -/
theorem comments_confined {c c' : Catalog} (h : c.uncommented = c'.uncommented) (p : Profile)
    (toggles : FeatureToggles) (project : String) :
    let b := Blueprint.ofSchema (Schema.infer c) p toggles project
    let b' := Blueprint.ofSchema (Schema.infer c') p toggles project
    List.Forall₂ (fun e e' =>
      (∀ framework,
        (s!"src/models/{e.names.file}.rs", Code.text (Rust.rowModule e)) ∈
            Rust.entityFiles framework b e ∧
          (s!"src/models/{e.names.file}.rs", Code.text (Rust.rowModule e')) ∈
            Rust.entityFiles framework b' e') ∧
      SameButComments "///" e.comments e'.comments (linesOf (Code.text (Rust.rowModule e)))
        (linesOf (Code.text (Rust.rowModule e'))) ∧
      (∀ framework,
        (s!"internal/models/{e.names.file}.go", Code.text (Go.modelSource b e)) ∈
            Go.entityFiles framework b e ∧
          (s!"internal/models/{e.names.file}.go", Code.text (Go.modelSource b' e')) ∈
            Go.entityFiles framework b' e') ∧
      SameButComments "//" e.comments e'.comments (linesOf (Code.text (Go.modelSource b e)))
        (linesOf (Code.text (Go.modelSource b' e')))) b.entities b'.entities := by
  intro b b'
  have hb : b.uncommented = b'.uncommented := by
    rw [← ofSchema_uncommented, h, ofSchema_uncommented]
  have hentities : b.entities.map Entity.uncommented = b'.entities.map Entity.uncommented :=
    congrArg Blueprint.entities hb
  refine (map_eq_map_iff_forall₂.1 hentities).imp fun e e' he => ?_
  have hnames : e.uncommented.names = e'.uncommented.names := congrArg Entity.names he
  change e.names = e'.names at hnames
  -- the files have the names of the entities, which no comment changes
  refine ⟨fun framework => ?_, Rust.sameBut_rowModule he, fun framework => ?_,
    Go.sameBut_modelSource hb he⟩
  · rw [hnames]
    exact ⟨hnames ▸ List.mem_cons_self, List.mem_cons_self⟩
  · rw [hnames]
    exact ⟨hnames ▸ List.mem_cons_self, List.mem_cons_self⟩

/-- A table of one column with a comment. -/
def commentedTable (comment : String) : Table :=
  { name := "t"
    columns := [{ name := "a", declaredType := "INT", dataType := .integer, comment }] }

/-- The entity of that table says what the comment says. -/
theorem comments_of_mem {script comment : String}
    (h : (Extraction.ofScript script .generic).catalog = { tables := [commentedTable comment] })
    {p : Profile} {e : Entity}
    (he : e ∈ (Schema.infer (Extraction.ofScript script .generic).catalog).entityModels p) :
    e.comments = [comment] := by
  have hreferential : (Extraction.ofScript script .generic).catalog.Referential :=
    referential_ofStatements _ _
  have htable := (table_of_mem hreferential he).1
  rw [h, List.mem_singleton] at htable
  rw [Entity.comments, congrArg Entity.fields (build_of_mem he).2, htable]
  rfl

/-- Two comments on one line each make files of as many lines. -/
theorem comments_confined_of_words :
    let c := (Extraction.ofScript "CREATE TABLE t (a INT COMMENT 'x')" .generic).catalog
    let c' := (Extraction.ofScript "CREATE TABLE t (a INT COMMENT 'y')" .generic).catalog
    c.uncommented = c'.uncommented ∧
      List.Forall₂ (fun e e' => e.comments = ["x"] ∧ e'.comments = ["y"] ∧
          (linesOf (Code.text (Rust.rowModule e))).length =
            (linesOf (Code.text (Rust.rowModule e'))).length)
        (Blueprint.ofSchema (Schema.infer c) BuiltIn.axum {} "app").entities
        (Blueprint.ofSchema (Schema.infer c') BuiltIn.axum {} "app").entities := by
  intro c c'
  have hc : c = { tables := [commentedTable "x"] } := by
    simp only [c]
    rw [Extraction.ofScript_of_toList String.toList_ofList]
    decide +kernel
  have hc' : c' = { tables := [commentedTable "y"] } := by
    simp only [c']
    rw [Extraction.ofScript_of_toList String.toList_ofList]
    decide +kernel
  have hsame : c.uncommented = c'.uncommented := by
    rw [hc, hc']
    rfl
  obtain ⟨hlength, hpairs⟩ :=
    List.forall₂_iff_zip.1 (comments_confined hsame BuiltIn.axum {} "app")
  refine ⟨hsame, List.forall₂_iff_zip.2 ⟨hlength, fun {e e'} hpair => ?_⟩⟩
  obtain ⟨he, he'⟩ := List.of_mem_zip hpair
  have hx : e.comments = ["x"] := comments_of_mem hc he
  have hy : e'.comments = ["y"] := comments_of_mem hc' he'
  -- neither comment has a line break, so the two texts have equally many lines
  have hnone : breaks ["x"] = 0 ∧ breaks ["y"] = 0 := by decide
  have hcount := (hpairs hpair).2.1.count
  rw [hx, hy, hnone.1, hnone.2, Nat.add_zero, Nat.add_zero] at hcount
  exact ⟨hx, hy, hcount⟩

/-- What a comment says on its second line is code. -/
theorem comment_becomes_code :
    let c := (Extraction.ofScript "CREATE TABLE t (a INT COMMENT 'x\ny')" .generic).catalog
    let c' := (Extraction.ofScript "CREATE TABLE t (a INT COMMENT 'x')" .generic).catalog
    let b (p : Profile) (c : Catalog) := Blueprint.ofSchema (Schema.infer c) p {} "app"
    c.uncommented = c'.uncommented ∧
      (∃ e ∈ (b BuiltIn.axum c).entities, ∃ e' ∈ (b BuiltIn.axum c').entities,
        e.table.name = e'.table.name ∧ ['y'] ∈ linesOf (Code.text (Rust.rowModule e)) ∧
          (linesOf (Code.text (Rust.rowModule e))).length =
            (linesOf (Code.text (Rust.rowModule e'))).length + 1) ∧
      ∃ e ∈ (b BuiltIn.gin c).entities, ∃ e' ∈ (b BuiltIn.gin c').entities,
        e.table.name = e'.table.name ∧
          ['y'] ∈ linesOf (Code.text (Go.modelSource (b BuiltIn.gin c) e)) ∧
          (linesOf (Code.text (Go.modelSource (b BuiltIn.gin c) e))).length =
            (linesOf (Code.text (Go.modelSource (b BuiltIn.gin c') e'))).length + 1 := by
  intro c c' b
  have hc : c = { tables := [commentedTable "x\ny"] } := by
    simp only [c]
    rw [Extraction.ofScript_of_toList String.toList_ofList]
    decide +kernel
  have hc' : c' = { tables := [commentedTable "x"] } := by
    simp only [c']
    rw [Extraction.ofScript_of_toList String.toList_ofList]
    decide +kernel
  have hsame : c.uncommented = c'.uncommented := by
    rw [hc, hc']
    rfl
  have hb (p : Profile) : (b p c).uncommented = (b p c').uncommented := by
    simp only [b]
    rw [← ofSchema_uncommented, hsame, ofSchema_uncommented]
  -- the entity of either table, whatever the target
  have hpair (p : Profile) : ∃ e ∈ (b p c).entities, ∃ e' ∈ (b p c').entities,
      e.uncommented = e'.uncommented ∧ e.comments = ["x\ny"] ∧ e'.comments = ["x"] := by
    have he := build_mem_ofScript hc p (List.mem_singleton_self _) rfl
    have hmem : Entity.uncommented _ ∈ (b p c).entities.map Entity.uncommented :=
      List.mem_map_of_mem he
    rw [show (b p c).entities.map Entity.uncommented = _ from congrArg Blueprint.entities (hb p)]
      at hmem
    obtain ⟨e', he', hentity⟩ := List.mem_map.1 hmem
    exact ⟨_, he, e', he', hentity.symm, comments_of_mem hc he, comments_of_mem hc' he'⟩
  have hbreaks : breaks ["x\ny"] = 1 ∧ breaks ["x"] = 0 := by decide
  refine ⟨hsame, ?_, ?_⟩
  · obtain ⟨e, he, e', he', hentity, hx, hx'⟩ := hpair BuiltIn.axum
    have hcount := (Rust.sameBut_rowModule hentity).count
    rw [hx, hx', hbreaks.1, hbreaks.2, Nat.add_zero] at hcount
    refine ⟨e, he, e', he', congrArg (·.table.name) hentity, ?_, hcount⟩
    exact Rust.mem_rowModule (hx ▸ List.mem_singleton_self _) (by decide)
  · obtain ⟨e, he, e', he', hentity, hx, hx'⟩ := hpair BuiltIn.gin
    have hcount := (Go.sameBut_modelSource (hb BuiltIn.gin) hentity).count
    rw [hx, hx', hbreaks.1, hbreaks.2, Nat.add_zero] at hcount
    refine ⟨e, he, e', he', congrArg (·.table.name) hentity, ?_, hcount⟩
    exact Go.mem_modelSource _ (hx ▸ List.mem_singleton_self _) (by decide)

end CrudGen
