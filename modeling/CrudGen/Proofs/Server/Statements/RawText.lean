import CrudGen.Proofs.Server.Calls.Basic

/-!
# Statements — quotes with a number sign behind them

A raw literal ends at the first quote that a number sign follows. Outside of names no statement has
a number sign, and inside of them every quote is doubled. What may end the literal is a name that
starts with a number sign or has one behind a quote.

Main results:

* `cutsRaw_iff` — a statement without number signs outside of names ends a literal exactly if one of
  its names does.
* `allWithin_of_mem_calls`, `allWithin_related` — which names the statements have, and that there is
  no number sign elsewhere.
-/

namespace CrudGen.Sql

open Lexeme

-- ---------------------------------------------------------------------------
-- Where a literal ends
-- ---------------------------------------------------------------------------

/-- Whether a raw literal ends in some characters: there is a quote that a number sign follows. -/
def CutsRaw (cs : List Char) : Prop :=
  ['"', '#'] <:+: cs

instance : DecidablePred CutsRaw := fun cs =>
  inferInstanceAs (Decidable (['"', '#'] <:+: cs))

/-- Whether a raw literal ends in a name, behind the quote before it or a quote that it has. -/
def NameCutsRaw (name : String) : Prop :=
  CutsRaw ('"' :: name.toList)

instance : DecidablePred NameCutsRaw := fun name =>
  inferInstanceAs (Decidable (CutsRaw ('"' :: name.toList)))

variable {c : Char} {xs ys rest : List Char}

/-- The empty text is not cut off. -/
@[simp] theorem not_cutsRaw_nil : ¬ CutsRaw [] := by
  decide

/-- A raw literal is cut off at its first quotation mark with a sign behind it. -/
theorem cutsRaw_cons : CutsRaw (c :: rest) ↔ (c = '"' ∧ rest.head? = some '#') ∨ CutsRaw rest := by
  have hsign : ['#'] <+: rest ↔ rest.head? = some '#' := by
    cases rest with
    | nil => simp
    | cons d more => simp [eq_comm]
  rw [CutsRaw, List.infix_cons_iff, List.cons_prefix_cons, hsign, eq_comm]
  rfl

/-- Characters that are no quotation marks cut nothing off. -/
theorem cutsRaw_cons_of_ne (h : c ≠ '"') : CutsRaw (c :: rest) ↔ CutsRaw rest := by
  simp [cutsRaw_cons, h]

/-- A literal ends in one of two texts, unless the second one starts with a number sign. -/
theorem cutsRaw_append (h : ys.head? ≠ some '#') :
    CutsRaw (xs ++ ys) ↔ CutsRaw xs ∨ CutsRaw ys := by
  induction xs with
  | nil => simp
  | cons c rest ih =>
    rw [List.cons_append, cutsRaw_cons, cutsRaw_cons, ih, or_assoc]
    cases rest with
    | nil => simp [h]
    | cons d more => rfl

/-- Whether a quote is doubled makes no difference. -/
theorem cutsRaw_doubled : CutsRaw (xs ++ '"' :: '"' :: rest) ↔ CutsRaw (xs ++ '"' :: rest) := by
  have hquotes : CutsRaw ('"' :: '"' :: rest) ↔ CutsRaw ('"' :: rest) := by simp [cutsRaw_cons]
  rw [cutsRaw_append (by simp), cutsRaw_append (by simp), hquotes]

-- ---------------------------------------------------------------------------
-- Names in a statement
-- ---------------------------------------------------------------------------

/-- Whether a raw literal ends in a name that is read. -/
def SomeCutsRaw (ls : List Lexeme) : Prop :=
  ∃ name, .name name ∈ ls ∧ NameCutsRaw name

/-- Lexemes in a row cut a literal off if one of them does. -/
theorem someCutsRaw_append {ls ls' : List Lexeme} :
    SomeCutsRaw (ls ++ ls') ↔ SomeCutsRaw ls ∨ SomeCutsRaw ls' := by
  simp only [SomeCutsRaw, List.mem_append, or_and_right, exists_or]

/-- The characters of a name that is being read, with the quote before it. A quote that may end it
is one of them. -/
def Lexeme.Mode.consumed : Mode → List Char
  | between | word _ | parameter _ => []
  | name cs => '"' :: cs.reverse
  | closing cs => '"' :: (cs.reverse ++ ['"'])

/-- What has been read so far cuts a literal off just as its lexemes do. -/
theorem cutsRaw_consumed (m : Mode) : CutsRaw m.consumed ↔ SomeCutsRaw m.ended := by
  cases m with
  | between | word | parameter => simp [Mode.consumed, SomeCutsRaw, Mode.ended]
  | name cs => simp [Mode.consumed, SomeCutsRaw, Mode.ended, NameCutsRaw]
  | closing cs =>
    have hquote : ¬ CutsRaw ['"'] := by decide
    rw [Mode.consumed, ← List.cons_append, cutsRaw_append (by simp), or_iff_left hquote]
    simp [SomeCutsRaw, Mode.ended, NameCutsRaw]

/-- A character that goes on with what is being read. -/
theorem cutsRaw_goOn? {m m' : Mode} (h : m.goOn? c = some m') :
    CutsRaw (m.consumed ++ c :: rest) ↔ CutsRaw (m'.consumed ++ rest) := by
  cases m with
  | between => cases h
  | word cs =>
    -- letters and digits are not the sign that closes a raw literal
    simp only [Mode.goOn?, Option.ite_none_right_eq_some, Option.some_inj] at h
    obtain ⟨hletter, rfl⟩ := h
    refine cutsRaw_cons_of_ne fun hquote => ?_
    rw [hquote] at hletter
    revert hletter
    decide
  | name cs =>
    rw [Mode.goOn?] at h
    -- a quotation mark within a name may be its end, or the first of two
    split at h
    · rename_i hquote
      obtain rfl := Option.some_inj.1 h
      simp [Mode.consumed, eq_of_beq hquote]
    · obtain rfl := Option.some_inj.1 h
      simp [Mode.consumed]
  | closing cs =>
    simp only [Mode.goOn?, Option.ite_none_right_eq_some, Option.some_inj, beq_iff_eq] at h
    obtain ⟨rfl, rfl⟩ := h
    -- doubled, it is no end: two marks are followed by neither a sign nor a cut
    have hdoubled : CutsRaw (('"' :: cs.reverse) ++ '"' :: '"' :: rest) ↔ _ := cutsRaw_doubled
    simpa [Mode.consumed] using hdoubled
  | parameter n =>
    simp only [Mode.goOn?, Option.ite_none_right_eq_some, Option.some_inj] at h
    obtain ⟨hdigit, rfl⟩ := h
    refine cutsRaw_cons_of_ne fun hquote => ?_
    rw [hquote] at hdigit
    revert hdigit
    decide

/-- A character that starts something. -/
theorem cutsRaw_opened : CutsRaw (c :: rest) ↔ CutsRaw ((Mode.opened c).1.consumed ++ rest) := by
  by_cases hquote : c = '"'
  · subst hquote
    rfl
  · have hnothing : (Mode.opened c).1.consumed = [] := by
      rw [Mode.opened, if_neg (by simpa using hquote)]
      split_ifs <;> rfl
    rw [cutsRaw_cons_of_ne hquote, hnothing]
    rfl

/-- A text whose number signs all stand in names ends a literal exactly if one of the names does. -/
theorem cutsRaw_consumed_append (m : Mode) (cs : List Char) (h : .symbol '#' ∉ readFrom m cs) :
    CutsRaw (m.consumed ++ cs) ↔ SomeCutsRaw (readFrom m cs) := by
  -- the quotes of a name are consumed as they are read, so each step keeps both sides
  induction cs generalizing m with
  | nil =>
    rw [List.append_nil]
    exact cutsRaw_consumed m
  | cons c rest ih =>
    rw [readFrom] at h ⊢
    cases hgo : m.goOn? c with
    | some m' =>
      rw [hgo] at h
      exact (cutsRaw_goOn? hgo).trans (ih m' h)
    | none =>
      rw [hgo] at h
      dsimp only at h ⊢
      simp only [List.mem_append, not_or] at h
      have hsign : c ≠ '#' := by
        rintro rfl
        exact h.2.1 (List.mem_singleton_self _)
      have hopened : ¬ SomeCutsRaw (Mode.opened c).2 := by
        rw [Mode.opened]
        split_ifs <;> simp [SomeCutsRaw]
      rw [cutsRaw_append (by simpa using hsign), cutsRaw_consumed, cutsRaw_opened, ih _ h.2.2,
        someCutsRaw_append, someCutsRaw_append, or_iff_right hopened]

/-- A statement ends its literal exactly if one of its names does. -/
theorem cutsRaw_iff {sql : String} (h : .symbol '#' ∉ lexemes sql) :
    CutsRaw sql.toList ↔ SomeCutsRaw (lexemes sql) :=
  cutsRaw_consumed_append .between sql.toList h

-- ---------------------------------------------------------------------------
-- What statements are made of
-- ---------------------------------------------------------------------------

/-- Whether a lexeme is no number sign, and one of some names if it is a name. -/
def Lexeme.Within (names : String → Prop) : Lexeme → Prop
  | .name text => names text
  | .symbol c => c ≠ '#'
  | .word _ | .parameter _ => True

/-- Whether some lexemes have no number sign and only some names. -/
def AllWithin (names : String → Prop) (ls : List Lexeme) : Prop :=
  ∀ l ∈ ls, l.Within names

section Within

variable {names : String → Prop}

@[simp] theorem allWithin_nil : AllWithin names [] :=
  List.forall_mem_nil _

/-- A word names no column and no table. -/
@[simp] theorem allWithin_word {text : String} {ls : List Lexeme} :
    AllWithin names (.word text :: ls) ↔ AllWithin names ls :=
  List.forall_mem_cons.trans (and_iff_right trivial)

/-- Parameters hold no sign that cuts a literal off. -/
@[simp] theorem allWithin_parameter {n : Nat} {ls : List Lexeme} :
    AllWithin names (.parameter n :: ls) ↔ AllWithin names ls :=
  List.forall_mem_cons.trans (and_iff_right trivial)

/-- Only a symbol can be the sign itself. -/
@[simp] theorem allWithin_symbol {c : Char} {ls : List Lexeme} :
    AllWithin names (.symbol c :: ls) ↔ c ≠ '#' ∧ AllWithin names ls :=
  List.forall_mem_cons

/-- A name has to be one of those that are allowed. -/
@[simp] theorem allWithin_name {text : String} {ls : List Lexeme} :
    AllWithin names (.name text :: ls) ↔ names text ∧ AllWithin names ls :=
  List.forall_mem_cons

/-- Both parts of a row of lexemes have to be within the names. -/
@[simp] theorem allWithin_append {ls ls' : List Lexeme} :
    AllWithin names (ls ++ ls') ↔ AllWithin names ls ∧ AllWithin names ls' :=
  List.forall_mem_append

/-- Parts with a separator between them are within the names if the parts and the separator are. -/
theorem AllWithin.intercalate {separator : List Lexeme} {parts : List (List Lexeme)}
    (hseparator : AllWithin names separator) (h : ∀ part ∈ parts, AllWithin names part) :
    AllWithin names (separator.intercalate parts) := by
  intro l hl
  rcases Text.exists_of_mem_intercalate hl with hl | ⟨part, hpart, hl⟩
  · exact hseparator l hl
  · exact h part hpart l hl

/-- The columns of a list have to be among the names. -/
theorem allWithin_namesRead {columns : List String} (h : ∀ c ∈ columns, names c) :
    AllWithin names (namesRead columns) := by
  refine .intercalate (by simp) (List.forall_mem_map.2 fun c hc => ?_)
  simpa using h c hc

/-- Whatever is made of columns one by one is within the names if each of it is. -/
theorem allWithin_mapIdx {columns : List String} (h : ∀ c ∈ columns, names c)
    {part : Nat → String → List Lexeme} (hpart : ∀ i c, names c → AllWithin names (part i c)) :
    ∀ ls ∈ columns.mapIdx part, AllWithin names ls := by
  intro ls hls
  obtain ⟨i, hi, rfl⟩ := List.mem_mapIdx.1 hls
  exact hpart i _ (h _ (List.getElem_mem hi))

/-- A comparison names its column and nothing else. -/
theorem allWithin_comparison {qualifier : List Lexeme} (hqualifier : AllWithin names qualifier)
    {column : String} (h : names column) (n : Nat) :
    AllWithin names (comparison qualifier column n) := by
  simpa [comparison] using ⟨hqualifier, h⟩

/-- A clause of conditions names what its conditions name. -/
theorem allWithin_conditionClause (start : String) {parts : List (List Lexeme)}
    (h : ∀ part ∈ parts, AllWithin names part) : AllWithin names (conditionClause start parts) := by
  rw [conditionClause]
  split
  · exact allWithin_nil
  · exact allWithin_word.2 (.intercalate (by simp) h)

end Within

-- ---------------------------------------------------------------------------
-- Statements
-- ---------------------------------------------------------------------------

/-- Whether the table and the columns of an entity are called by some names. -/
structure Covers (names : String → Prop) (e : Entity) : Prop where
  table   : names e.table.name
  columns : ∀ f ∈ e.fields, names f.column

/-- Whether what a relation leads through and to is called by some names. -/
structure CoversRelation (names : String → Prop) (r : Relation) : Prop where
  table   : names r.targetTable
  columns : ∀ c ∈ r.remoteColumns, names c
  link    : ∀ link ∈ r.via, names link.table ∧ (∀ c ∈ link.localColumns, names c) ∧
              ∀ c ∈ link.remoteColumns, names c

section Statements

variable {names : String → Prop} {e : Entity} {paginate softDelete : Bool}

/-- The columns of a key are columns. -/
theorem Covers.keyColumns (h : Covers names e) : ∀ c ∈ keyColumns e, names c := by
  rw [Sql.keyColumns, List.forall_mem_map]
  exact fun f hf => h.columns f (List.mem_filter.1 hf).1

/-- Inputs are columns. -/
theorem Covers.inputColumns (h : Covers names e) : ∀ c ∈ inputColumns e, names c := by
  rw [Sql.inputColumns, List.forall_mem_map]
  exact fun f hf => h.columns f (List.mem_filter.1 hf).1

/-- The column of the mark is one of the columns. -/
theorem Covers.marker (h : Covers names e) : ∀ f ∈ marker? e softDelete, names f.column := by
  intro f hf
  rw [marker?, Option.mem_def] at hf
  split at hf
  · exact h.columns f (List.mem_of_find?_eq_some hf)
  · cases hf

/-- The columns that are returned are columns. -/
theorem Covers.returned (h : Covers names e) :
    AllWithin names (namesRead (e.fields.map (·.column))) :=
  allWithin_namesRead (List.forall_mem_map.2 h.columns)

/-- The test of the mark names the column of the mark. -/
theorem Covers.living (h : Covers names e) :
    ∀ part ∈ living (marker? e softDelete), AllWithin names part := by
  rw [Sql.living, List.forall_mem_map]
  intro f hf
  simpa using h.marker f (Option.mem_toList.1 hf)

/-- The conditions on the key name columns of the key and the one of the mark. -/
theorem Covers.keyed (h : Covers names e) (first : Nat) :
    ∀ part ∈ keyedParts (Sql.keyColumns e) first (marker? e softDelete), AllWithin names part :=
  List.forall_mem_append.2
    ⟨allWithin_mapIdx h.keyColumns fun i _ hc => allWithin_comparison allWithin_nil hc (first + i),
      h.living⟩

/-- A selection names the columns and the table. -/
theorem Covers.selectRead (h : Covers names e) : AllWithin names (selectRead e) := by
  simpa [Sql.selectRead] using ⟨h.returned, h.table⟩

/-- A page names the columns of the key. -/
theorem Covers.pageRead (h : Covers names e) : AllWithin names (pageRead e paginate) := by
  rw [Sql.pageRead, allWithin_append]
  constructor
  · split
    · exact allWithin_nil
    · simpa using allWithin_namesRead h.keyColumns
  · split <;> simp

/-- A change names the table and the inputs. -/
theorem Covers.setRead (h : Covers names e) : AllWithin names (setRead e) := by
  have hassignments : ∀ part ∈ (Sql.inputColumns e).mapIdx fun i c => assignment c (i + 1),
      AllWithin names part :=
    allWithin_mapIdx h.inputColumns fun i c hc => by simpa [assignment] using hc
  simpa [Sql.setRead] using ⟨h.table, AllWithin.intercalate (by simp) hassignments⟩

/-- A deletion names the table, and the column of the mark. -/
theorem Covers.deleteRead (h : Covers names e) :
    AllWithin names (deleteRead e (marker? e softDelete)) := by
  have hmarker : ∀ f ∈ marker? e softDelete, names f.column := h.marker
  cases hmarked : marker? e softDelete with
  | none => simpa [Sql.deleteRead] using h.table
  | some f =>
    rw [hmarked] at hmarker
    simpa [Sql.deleteRead] using ⟨h.table, hmarker f rfl⟩

/-- An insertion names the table and the inputs. -/
theorem Covers.insertRead (h : Covers names e) : AllWithin names (insertRead e) := by
  have hparameters (numbers : List Nat) : AllWithin names (parametersRead numbers) :=
    .intercalate (by simp) (List.forall_mem_map.2 fun n _ => by simp)
  have hreturned := h.returned
  have hcolumns := allWithin_namesRead h.inputColumns
  rw [Sql.insertRead]
  split <;> simp [returningRead, h.table, hreturned, hcolumns, hparameters]

/-- The statements of an entity have its names and no number sign elsewhere. -/
theorem allWithin_of_mem_calls (h : Covers names e) {page inputs key : List String} {call : Call}
    (hcall : call ∈ (Statements.ofEntity e paginate softDelete).calls page inputs key) :
    AllWithin names (lexemes call.sql) := by
  simp only [Statements.calls, List.mem_cons, List.mem_append, List.mem_map, Option.mem_toList]
    at hcall
  rcases hcall with rfl | rfl | ⟨sql, hfind, rfl⟩ | rfl | ⟨sql, hupdate, rfl⟩ | ⟨sql, hdelete, rfl⟩
  · rw [lexemes_list, allWithin_append, allWithin_append]
    exact ⟨h.selectRead, allWithin_conditionClause _ h.living, h.pageRead⟩
  · rw [lexemes_count, allWithin_append]
    exact ⟨by simpa [countRead] using h.table, allWithin_conditionClause _ h.living⟩
  · rw [(lexemes_find hfind).2, allWithin_append]
    exact ⟨h.selectRead, allWithin_conditionClause _ (h.keyed 1)⟩
  · rw [lexemes_insert]
    exact h.insertRead
  · rw [(lexemes_update hupdate).2.2, allWithin_append, allWithin_append]
    exact ⟨h.setRead, allWithin_conditionClause _ (h.keyed _),
      by simpa [returningRead] using h.returned⟩
  · rw [(lexemes_delete hdelete).2, allWithin_append]
    exact ⟨h.deleteRead, allWithin_conditionClause _ (h.keyed 1)⟩

/-- Comparisons with parameters name the columns that they compare. -/
theorem allWithin_comparedParts {columns : List String} (h : ∀ c ∈ columns, names c)
    (qualifier : String) : ∀ part ∈ comparedParts qualifier columns, AllWithin names part :=
  allWithin_mapIdx h fun _ _ hc => allWithin_comparison (by simp) hc _

/-- So has what loads the rows of a relation. -/
theorem allWithin_related {r : Relation} (h : CoversRelation names r) :
    AllWithin names (lexemes (related r)) := by
  have hrelated : AllWithin names (relatedRead r) := by simpa [relatedRead] using h.table
  cases hvia : r.via with
  | none =>
    rw [lexemes_related_of_direct hvia, List.append_nil, allWithin_append, allWithin_word]
    exact ⟨hrelated, .intercalate (by simp) (allWithin_comparedParts h.columns "t")⟩
  | some junction =>
    obtain ⟨htable, hlocal, hremote⟩ := h.link junction hvia
    have hpairs : ∀ part ∈ joinedParts (junction.remoteColumns.zip r.remoteColumns),
        AllWithin names part := by
      rw [joinedParts, List.forall_mem_map]
      rintro ⟨j, t⟩ hpair
      obtain ⟨hj, ht⟩ := List.of_mem_zip hpair
      simpa [qualified] using ⟨hremote j hj, h.columns t ht⟩
    rw [lexemes_related_of_junction hvia, List.append_nil]
    simp only [allWithin_append, allWithin_word, allWithin_name, allWithin_nil, and_true]
    exact ⟨⟨hrelated, htable⟩, .intercalate (by simp) hpairs,
      .intercalate (by simp) (allWithin_comparedParts hlocal "j")⟩

end Statements

end CrudGen.Sql
