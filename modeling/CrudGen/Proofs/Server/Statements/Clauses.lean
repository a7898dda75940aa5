import Mathlib.Data.List.TakeWhile
import CrudGen.Proofs.Server.Statements.Lexemes

/-!
# Statements — clauses, conditions and parameters

The statements of an entity are read clause by clause: which columns are set or inserted and from
which parameters, and which conditions a row has to meet.

Main results:

* `lexemes_list`, `lexemes_count`, `lexemes_find`, `lexemes_insert`, `lexemes_update`,
  `lexemes_delete`, `lexemes_related_of_direct`, `lexemes_related_of_junction` — what each statement
  is read as.
* `conditionsIn_append` — the conditions of a clause between others.
-/

namespace CrudGen.Sql

-- ---------------------------------------------------------------------------
-- Clauses
-- ---------------------------------------------------------------------------

/-- The words that a clause starts with. -/
def clauseWords : List String :=
  ["SELECT", "INSERT", "UPDATE", "DELETE", "FROM", "SET", "VALUES", "DEFAULT", "JOIN", "ON", "WHERE",
    "ORDER", "LIMIT", "OFFSET", "RETURNING"]

/-- Whether a clause starts. -/
def Lexeme.startsClause : Lexeme → Bool
  | .word text => clauseWords.contains text
  | _ => false

/-- What stands in the first clause that a word starts. -/
def clause (start : String) (ls : List Lexeme) : List Lexeme :=
  (ls.dropWhile (· != .word start)).tail.takeWhile fun l => !l.startsClause

/-- The parameters that occur, in order. -/
def parametersIn (ls : List Lexeme) : List Nat :=
  ls.filterMap fun
    | .parameter n => some n
    | _ => none

/-- A condition on rows. Columns come with a qualifier, which is empty if there is none. -/
inductive Condition where
  | equals (qualifier column : String) (n : Nat)
  | isNull (qualifier column : String)
  | joined (qualifier column qualifier' column' : String)
  | other
  deriving DecidableEq, Repr

/-- The condition that some lexemes are. -/
def Condition.ofLexemes : List Lexeme → Condition
  | [.name c, .symbol '=', .parameter n] => .equals "" c n
  | [.word q, .symbol '.', .name c, .symbol '=', .parameter n] => .equals q c n
  | [.name c, .word "IS", .word "NULL"] => .isNull "" c
  | [.word q, .symbol '.', .name c, .word "IS", .word "NULL"] => .isNull q c
  | [.word q, .symbol '.', .name c, .symbol '=', .word q', .symbol '.', .name c'] =>
    .joined q c q' c'
  | _ => .other

/-- The conditions in the clause that a word starts. -/
def conditionsIn (start : String) (ls : List Lexeme) : List Condition :=
  match clause start ls with
  | [] => []
  | body => (body.splitOn (.word "AND")).map .ofLexemes

/-- The conditions of a statement. -/
def conditions (sql : String) : List Condition :=
  conditionsIn "ON" (lexemes sql) ++ conditionsIn "WHERE" (lexemes sql)

/-- A clause of conditions, which is missing if there are none. -/
def conditionClause (start : String) (parts : List (List Lexeme)) : List Lexeme :=
  if parts = [] then [] else .word start :: [.word "AND"].intercalate parts

/-- Whether something is no clause and no conjunction. -/
def Lexeme.Inner (l : Lexeme) : Prop :=
  l.startsClause = false ∧ l ≠ .word "AND"

instance : DecidablePred Lexeme.Inner := fun l =>
  inferInstanceAs (Decidable (l.startsClause = false ∧ l ≠ .word "AND"))

section Clauses

variable {start : String} {before body after : List Lexeme}

/-- The body of a clause is found between what stands before it and the next clause. -/
theorem clause_append (hbefore : .word start ∉ before) (hbody : ∀ l ∈ body, l.startsClause = false)
    (hafter : ∀ l ∈ after.head?, l.startsClause = true) :
    clause start (before ++ .word start :: (body ++ after)) = body := by
  have htake : after.takeWhile (fun l => !l.startsClause) = [] := by
    cases after with
    | nil => rfl
    | cons l rest => rw [List.takeWhile_cons, hafter l rfl]; rfl
  rw [clause, Text.dropWhile_ne_append hbefore, List.tail_cons, List.takeWhile_append_of_pos, htake,
    List.append_nil]
  simpa using hbody

/-- A clause that no word starts is empty. -/
theorem clause_of_not_mem {ls : List Lexeme} (h : .word start ∉ ls) : clause start ls = [] := by
  rw [clause, Text.dropWhile_ne_of_not_mem h]
  rfl

/-- The conditions of a clause between others. -/
theorem conditionsIn_append {parts : List (List Lexeme)} (hbefore : .word start ∉ before)
    (hparts : ∀ part ∈ parts, part ≠ [] ∧ ∀ l ∈ part, l.Inner)
    (hafter : ∀ l ∈ after.head?, l.startsClause = true) :
    conditionsIn start (before ++ .word start :: ([.word "AND"].intercalate parts ++ after)) =
      parts.map .ofLexemes := by
  -- no part starts a clause, so the clause is all of them with their `AND`s
  have hbody : ∀ l ∈ [.word "AND"].intercalate parts, l.startsClause = false := by
    intro l hl
    rcases Text.exists_of_mem_intercalate hl with hand | ⟨part, hpart, hl⟩
    · obtain rfl := List.mem_singleton.1 hand
      decide
    · exact ((hparts part hpart).2 l hl).1
  rw [conditionsIn, clause_append hbefore hbody hafter]
  cases parts with
  | nil => rfl
  | cons part rest =>
    -- no part holds an `AND`, so splitting gives the parts back
    have hsplit : ([Lexeme.word "AND"].intercalate (part :: rest)).splitOn (.word "AND") =
        part :: rest :=
      List.splitOn_intercalate _ (fun part hpart hand => ((hparts part hpart).2 _ hand).2 rfl)
        (by simp)
    have hsome : [Lexeme.word "AND"].intercalate (part :: rest) ≠ [] := by
      have hpart := (hparts part List.mem_cons_self).1
      cases rest with
      | nil => simpa using hpart
      | cons next more => simp [List.intercalate_cons_cons]
    split
    · rename_i hnil
      exact absurd hnil hsome
    · rw [hsplit]

/-- The conditions of a clause that is missing if there are none. -/
theorem conditionsIn_conditionClause {parts : List (List Lexeme)} (hbefore : .word start ∉ before)
    (hparts : ∀ part ∈ parts, part ≠ [] ∧ ∀ l ∈ part, l.Inner)
    (hafter : ∀ l ∈ after.head?, l.startsClause = true) (hnone : .word start ∉ after) :
    conditionsIn start (before ++ (conditionClause start parts ++ after)) =
      parts.map .ofLexemes := by
  by_cases hempty : parts = []
  · have hmissing : clause start (before ++ after) = [] :=
      clause_of_not_mem (by simp [hbefore, hnone])
    rw [hempty, conditionClause, if_pos rfl, List.nil_append, conditionsIn, hmissing]
    rfl
  · rw [conditionClause, if_neg hempty, List.cons_append, conditionsIn_append hbefore hparts hafter]

end Clauses

-- ---------------------------------------------------------------------------
-- Parameters
-- ---------------------------------------------------------------------------

/-- The parameters of lexemes in a row are those of one part and then those of the other. -/
@[simp] theorem parametersIn_append (ls ls' : List Lexeme) :
    parametersIn (ls ++ ls') = parametersIn ls ++ parametersIn ls' :=
  List.filterMap_append

/-- A separator without parameters adds none to the parts that it separates. -/
theorem parametersIn_intercalate {l : Lexeme} (hl : parametersIn [l] = [])
    (parts : List (List Lexeme)) :
    parametersIn ([l].intercalate parts) = parts.flatMap parametersIn := by
  induction parts with
  | nil => rfl
  | cons part rest ih =>
    cases rest with
    | nil => simp
    | cons next more =>
      rw [List.intercalate_cons_cons, parametersIn_append, parametersIn_append, hl, List.append_nil,
        ih]
      rfl

/-- Names of columns hold no parameters. -/
@[simp] theorem parametersIn_namesRead (names : List String) :
    parametersIn (namesRead names) = [] := by
  rw [namesRead, parametersIn_intercalate rfl, List.flatMap_map]
  exact List.flatMap_eq_nil_iff.2 fun _ _ => rfl

/-- Comparisons with parameters that are numbered in order. -/
theorem parametersIn_comparisons {lq : List Lexeme} (hq : parametersIn lq = [])
    (columns : List String) (first : Nat) :
    (columns.mapIdx fun i c => comparison lq c (first + i)).flatMap parametersIn =
      List.range' first columns.length := by
  induction columns generalizing first with
  | nil => rfl
  | cons c rest ih =>
    have hnext : (rest.mapIdx fun i c => comparison lq c (first + (i + 1))) =
        rest.mapIdx fun i c => comparison lq c (first + 1 + i) :=
      List.mapIdx_eq_mapIdx_iff.2 fun i hi => by rw [Nat.add_comm i 1, Nat.add_assoc]
    rw [List.mapIdx_cons, List.flatMap_cons, hnext, ih, comparison, parametersIn_append, hq]
    rfl

-- ---------------------------------------------------------------------------
-- Literals
-- ---------------------------------------------------------------------------

/-- Between two clauses, a `WHERE` is read whatever stands on either side. -/
theorem setsOff_where : SetsOff " WHERE " [.word "WHERE"] :=
  .literal (fun _ => rfl) (by decide)

theorem setsOff_from : SetsOff " FROM " [.word "FROM"] :=
  .literal (fun _ => rfl) (by decide)

theorem setsOff_set : SetsOff " SET " [.word "SET"] :=
  .literal (fun _ => rfl) (by decide)

/-- The columns that rows are ordered by stand behind two words. -/
theorem setsOff_orderBy : SetsOff " ORDER BY " [.word "ORDER", .word "BY"] :=
  .literal (fun _ => rfl) (by decide)

/-- A page is given by two parameters, the second of which stands behind `OFFSET`. -/
theorem setsOff_limit : SetsOff " LIMIT $1 OFFSET " [.word "LIMIT", .parameter 1, .word "OFFSET"] :=
  .literal (fun _ => rfl) (by decide)

theorem setsOff_returning : SetsOff " RETURNING " [.word "RETURNING"] :=
  .literal (fun _ => rfl) (by decide)

/-- An assignment compares the parameter with the column, which it falls back to. -/
theorem setsOff_coalesce :
    SetsOff " = COALESCE(" [.symbol '=', .word "COALESCE", .symbol '('] :=
  .literal (fun _ => rfl) (by decide)

/-- A row is marked with the time at which it is deleted. -/
theorem setsOff_now : SetsOff " = now() WHERE "
    [.symbol '=', .word "now", .symbol '(', .symbol ')', .word "WHERE"] :=
  .literal (fun _ => rfl) (by decide)

theorem setsOff_close : SetsOff ")" [.symbol ')'] :=
  .literal (fun _ => rfl) (by decide)

theorem ends_select : Ends "SELECT " [.word "SELECT"] :=
  .literal fun _ => rfl

/-- The statement that counts rows names no column. -/
theorem ends_count : Ends "SELECT COUNT(*) FROM "
    [.word "SELECT", .word "COUNT", .symbol '(', .symbol '*', .symbol ')', .word "FROM"] :=
  .literal fun _ => rfl

theorem ends_update : Ends "UPDATE " [.word "UPDATE"] :=
  .literal fun _ => rfl

theorem ends_delete : Ends "DELETE FROM " [.word "DELETE", .word "FROM"] :=
  .literal fun _ => rfl

theorem ends_insert : Ends "INSERT INTO " [.word "INSERT", .word "INTO"] :=
  .literal fun _ => rfl

/-- A row without inputs is inserted with defaults only. -/
theorem setsOff_default : SetsOff " DEFAULT VALUES RETURNING "
    [.word "DEFAULT", .word "VALUES", .word "RETURNING"] :=
  .literal (fun _ => rfl) (by decide)

theorem setsOff_open : SetsOff " (" [.symbol '('] :=
  .literal (fun _ => rfl) (by decide)

/-- The columns of a row stand before `VALUES`, and its parameters behind it. -/
theorem setsOff_values : SetsOff ") VALUES (" [.symbol ')', .word "VALUES", .symbol '('] :=
  .literal (fun _ => rfl) (by decide)

/-- The parenthesis of the parameters is closed before the row is returned. -/
theorem setsOff_closeReturning : SetsOff ") RETURNING " [.symbol ')', .word "RETURNING"] :=
  .literal (fun _ => rfl) (by decide)

/-- Related rows are read under the name `t`. -/
theorem ends_selectAll : Ends "SELECT t.* FROM "
    [.word "SELECT", .word "t", .symbol '.', .symbol '*', .word "FROM"] :=
  .literal fun _ => rfl

/-- A junction is joined under a name of its own. -/
theorem setsOff_joining : SetsOff " t JOIN " [.word "t", .word "JOIN"] :=
  .literal (fun _ => rfl) (by decide)

theorem setsOff_on : SetsOff " j ON " [.word "j", .word "ON"] :=
  .literal (fun _ => rfl) (by decide)

theorem setsOff_whereTarget : SetsOff " t WHERE " [.word "t", .word "WHERE"] :=
  .literal (fun _ => rfl) (by decide)

theorem setsOff_equalsTarget : SetsOff " = t." [.symbol '=', .word "t", .symbol '.'] :=
  .literal (fun _ => rfl) (by decide)

theorem ends_junction : Ends "j." [.word "j", .symbol '.'] :=
  .literal fun _ => rfl

theorem ends_target : Ends "t." [.word "t", .symbol '.'] :=
  .literal fun _ => rfl

/-- What is tested for being empty stands behind its column. -/
theorem behind_isNull : Behind " IS NULL" [Lexeme.word "IS", Lexeme.word "NULL"] := by
  have hreads : Reads " IS NULL" ([Lexeme.word "IS"] ++ [Lexeme.word "NULL"]) :=
    reads_of_word fun _ => rfl
  exact ⟨by decide, hreads⟩

-- ---------------------------------------------------------------------------
-- Conditions on rows
-- ---------------------------------------------------------------------------

/-- The columns of the key. -/
def keyColumns (e : Entity) : List String :=
  e.keyFields.map (·.column)

/-- The columns that a new row may come with. -/
def inputColumns (e : Entity) : List String :=
  e.inputFields.map (·.column)

/-- The field that marks deleted rows, if rows are to be marked. -/
def marker? (e : Entity) (softDelete : Bool) : Option Field :=
  if softDelete then e.softDeleteField? else none

/-- The condition that a row is not marked, behind a text. -/
def liveText (marker : Option Field) (before : String) : String :=
  match marker with
  | some f => before ++ quoteName f.column ++ " IS NULL"
  | none => ""

/-- The condition that a row is not marked. -/
def living (marker : Option Field) : List (List Lexeme) :=
  marker.toList.map fun f => [.name f.column, .word "IS", .word "NULL"]

/-- The conditions on a key, and that a row is not marked. -/
def keyedParts (keys : List String) (first : Nat) (marker : Option Field) : List (List Lexeme) :=
  (keys.mapIdx fun i c => comparison [] c (first + i)) ++ living marker

section Conditions

variable (marker : Option Field) {keys : List String} (hkeys : keys ≠ [])

/-- The test of the mark is a clause of its own in statements without another condition. -/
theorem behind_live :
    Behind (liveText marker " WHERE ") (conditionClause "WHERE" (living marker)) := by
  cases marker with
  | none => exact .empty
  | some f =>
    rw [liveText, String.append_assoc]
    exact setsOff_where.behind ((reads_quoteName f.column).behind behind_isNull)

include hkeys

/-- The key of a row and the test of the mark are the conditions of one clause. -/
theorem reads_keyed (first : Nat) : Reads (predicate "" keys first ++ liveText marker " AND ")
    ([.word "AND"].intercalate (keyedParts keys first marker)) := by
  have hpredicate := reads_predicate ends_empty keys first
  cases marker with
  | none =>
    rw [liveText, String.append_empty, keyedParts, living, Option.toList_none, List.map_nil,
      List.append_nil]
    exact hpredicate
  | some f =>
    have hsome : (keys.mapIdx fun i c => comparison [] c (first + i)) ≠ [] := by simpa using hkeys
    rw [liveText, String.append_assoc, keyedParts, living, Option.toList_some, List.map_singleton,
      Text.intercalate_concat _ hsome, List.append_assoc]
    exact hpredicate.behind (setsOff_and.behind ((reads_quoteName f.column).behind behind_isNull))

/-- A row with a key has a condition on it. -/
theorem keyedParts_ne_nil (first : Nat) : keyedParts keys first marker ≠ [] := by
  simp [keyedParts, hkeys]

/-- The conditions on a key with more behind them. -/
theorem behind_where (first : Nat) {text : String} {ls : List Lexeme} (h : Behind text ls) :
    Behind (" WHERE " ++ (predicate "" keys first ++ liveText marker " AND " ++ text))
      (conditionClause "WHERE" (keyedParts keys first marker) ++ ls) := by
  rw [conditionClause, if_neg (keyedParts_ne_nil marker hkeys first)]
  exact setsOff_where.behind ((reads_keyed marker hkeys first).behind h)

end Conditions

-- ---------------------------------------------------------------------------
-- Reading rows
-- ---------------------------------------------------------------------------

section Statements

variable (e : Entity) (paginate softDelete : Bool)

/-- The beginning of a statement that reads rows. -/
def selectRead (e : Entity) : List Lexeme :=
  Lexeme.word "SELECT" ::
    (namesRead (e.fields.map (·.column)) ++ [Lexeme.word "FROM", Lexeme.name e.table.name])

/-- The end of a statement that lists rows. -/
def pageRead (e : Entity) (paginate : Bool) : List Lexeme :=
  (if (keyColumns e).isEmpty then []
    else Lexeme.word "ORDER" :: Lexeme.word "BY" :: namesRead (keyColumns e)) ++
    if paginate then
      [Lexeme.word "LIMIT", Lexeme.parameter 1, Lexeme.word "OFFSET", Lexeme.parameter 2]
    else []

/-- A page orders rows by their key, if they have one, and takes a part of them if pages are asked
for. -/
theorem behind_page : Behind
    ((if (keyColumns e).isEmpty then "" else " ORDER BY " ++ nameList (keyColumns e)) ++
      if paginate then " LIMIT $1 OFFSET $2" else "") (pageRead e paginate) := by
  refine .append ?_ ?_
  · split
    · exact .empty
    · exact setsOff_orderBy.behind (reads_nameList _)
  · cases paginate with
    | false => exact .empty
    | true => exact setsOff_limit.behind (reads_parameter 2)

/-- A selection names all columns and the table, whatever clauses come behind it. -/
theorem reads_select {text : String} {ls : List Lexeme} (h : Behind text ls) :
    Reads ("SELECT " ++ (nameList (e.fields.map (·.column)) ++ (" FROM " ++
      (quoteName e.table.name ++ text)))) (selectRead e ++ ls) := by
  have hselect := ends_select.append ((reads_nameList (e.fields.map (·.column))).behind
    (setsOff_from.behind ((reads_quoteName e.table.name).behind h)))
  simpa only [selectRead, List.append_assoc, List.cons_append, List.nil_append] using hselect

/-- All rows that are not marked, page by page. -/
theorem lexemes_list : lexemes (Statements.ofEntity e paginate softDelete).list =
    selectRead e ++ (conditionClause "WHERE" (living (marker? e softDelete)) ++
      pageRead e paginate) := by
  have hlist := reads_select e
    ((behind_live (marker? e softDelete)).append (behind_page e paginate))
  simp only [← String.append_assoc] at hlist
  exact hlist.lexemes

/-- The beginning of a statement that counts rows. -/
def countRead (e : Entity) : List Lexeme :=
  [.word "SELECT", .word "COUNT", .symbol '(', .symbol '*', .symbol ')', .word "FROM",
    .name e.table.name]

/-- The number of the rows that are not marked. -/
theorem lexemes_count : lexemes (Statements.ofEntity e paginate softDelete).count =
    countRead e ++ conditionClause "WHERE" (living (marker? e softDelete)) := by
  have hcount := ends_count.append ((reads_quoteName e.table.name).behind
    (behind_live (marker? e softDelete)))
  rw [← String.append_assoc] at hcount
  exact hcount.lexemes

variable {e paginate softDelete} {sql : String}

/-- Statements for one row exist only if rows have a key. -/
theorem eq_of_keyed {text : String}
    (h : (if (keyColumns e).isEmpty then none else some text) = some sql) :
    keyColumns e ≠ [] ∧ sql = text := by
  split at h
  · cases h
  · rename_i hkeys
    exact ⟨mt List.isEmpty_iff.2 hkeys, (Option.some_inj.1 h).symm⟩

/-- The statement that finds a row, and when there is one. -/
theorem find_eq : (Statements.ofEntity e paginate softDelete).find =
    if (keyColumns e).isEmpty then none
    else some ("SELECT " ++ nameList (e.fields.map (·.column)) ++ " FROM " ++
      quoteName e.table.name ++ " WHERE " ++ predicate "" (keyColumns e) 1 ++
        liveText (marker? e softDelete) " AND ") :=
  rfl

/-- A row is found by its key, and only if it is not marked. -/
theorem lexemes_find (h : (Statements.ofEntity e paginate softDelete).find = some sql) :
    keyColumns e ≠ [] ∧ lexemes sql = selectRead e ++
      conditionClause "WHERE" (keyedParts (keyColumns e) 1 (marker? e softDelete)) := by
  rw [find_eq] at h
  obtain ⟨hkeys, rfl⟩ := eq_of_keyed h
  have hfind := reads_select e (behind_where (marker? e softDelete) hkeys 1 .empty)
  simp only [String.append_empty, List.append_nil, ← String.append_assoc] at hfind
  exact ⟨hkeys, hfind.lexemes⟩

-- ---------------------------------------------------------------------------
-- Changing rows
-- ---------------------------------------------------------------------------

/-- The assignment of a parameter to a column, unless it is null. -/
def assignment (column : String) (n : Nat) : List Lexeme :=
  [.name column, .symbol '=', .word "COALESCE", .symbol '(', .parameter n, .symbol ',',
    .name column, .symbol ')']

/-- An omitted member leaves its column as it is. -/
theorem reads_assignment (column : String) (n : Nat) :
    Reads (quoteName column ++ " = COALESCE(" ++ parameter n ++ ", " ++ quoteName column ++ ")")
      (assignment column n) := by
  have hclose : Behind ")" [.symbol ')'] := ⟨setsOff_close.apart, setsOff_close.ends.reads⟩
  simp only [String.append_assoc]
  exact (reads_quoteName column).behind (setsOff_coalesce.behind ((reads_parameter n).behind
    (setsOff_comma.behind ((reads_quoteName column).behind hclose))))

/-- The beginning of a statement that changes rows. -/
def setRead (e : Entity) : List Lexeme :=
  .word "UPDATE" :: .name e.table.name :: .word "SET" ::
    List.intercalate [.symbol ','] ((inputColumns e).mapIdx fun i c => assignment c (i + 1))

/-- The end of a statement that gives back rows. -/
def returningRead (e : Entity) : List Lexeme :=
  .word "RETURNING" :: namesRead (e.fields.map (·.column))

/-- The statement that changes a row, and when there is one. -/
theorem update_eq : (Statements.ofEntity e paginate softDelete).update =
    if (inputColumns e).isEmpty then none
    else if (keyColumns e).isEmpty then none
    else some ("UPDATE " ++ quoteName e.table.name ++ " SET " ++
      ", ".intercalate ((inputColumns e).mapIdx fun i c =>
        quoteName c ++ " = COALESCE(" ++ parameter (i + 1) ++ ", " ++ quoteName c ++ ")") ++
      " WHERE " ++ predicate "" (keyColumns e) ((inputColumns e).length + 1) ++
        liveText (marker? e softDelete) " AND " ++ " RETURNING " ++
          nameList (e.fields.map (·.column))) :=
  rfl

/-- The inputs take the first parameters of a change, and the key takes those behind them. -/
theorem lexemes_update (h : (Statements.ofEntity e paginate softDelete).update = some sql) :
    inputColumns e ≠ [] ∧ keyColumns e ≠ [] ∧ lexemes sql = setRead e ++
      (conditionClause "WHERE"
        (keyedParts (keyColumns e) ((inputColumns e).length + 1) (marker? e softDelete)) ++
        returningRead e) := by
  rw [update_eq] at h
  split at h
  · cases h
  · rename_i hinputs
    obtain ⟨hkeys, rfl⟩ := eq_of_keyed h
    -- the parts of the text, each read as it stands behind the one before
    have hassignments := reads_intercalate setsOff_comma
      (forall₂_mapIdx (fun i c => reads_assignment c (i + 1)) (inputColumns e))
    have hwhere := behind_where (marker? e softDelete) hkeys ((inputColumns e).length + 1)
      (setsOff_returning.behind (reads_nameList (e.fields.map (·.column))))
    have hupdate := ends_update.append ((reads_quoteName e.table.name).behind
      (setsOff_set.behind (hassignments.behind hwhere)))
    have hlexemes := hupdate.lexemes
    simp only [← String.append_assoc] at hlexemes
    refine ⟨mt List.isEmpty_iff.2 hinputs, hkeys, ?_⟩
    simpa only [setRead, returningRead, List.append_assoc, List.cons_append, List.nil_append]
      using hlexemes

/-- What deletes rows, or marks them. -/
def deleteText (e : Entity) (marker : Option Field) : String :=
  match marker with
  | some f =>
    "UPDATE " ++ quoteName e.table.name ++ " SET " ++ quoteName f.column ++ " = now() WHERE " ++
      predicate "" (keyColumns e) 1 ++ liveText marker " AND "
  | none => "DELETE FROM " ++ quoteName e.table.name ++ " WHERE " ++ predicate "" (keyColumns e) 1

/-- The statement that deletes a row, and when there is one. -/
theorem delete_eq : (Statements.ofEntity e paginate softDelete).delete =
    if (keyColumns e).isEmpty then none else some (deleteText e (marker? e softDelete)) :=
  rfl

/-- The beginning of a statement that deletes rows, or marks them. -/
def deleteRead (e : Entity) : Option Field → List Lexeme
  | some f => [.word "UPDATE", .name e.table.name, .word "SET", .name f.column, .symbol '=',
      .word "now", .symbol '(', .symbol ')']
  | none => [.word "DELETE", .word "FROM", .name e.table.name]

/-- A row is marked as deleted, or removed if rows are not marked. -/
theorem reads_deleteText (hkeys : keyColumns e ≠ []) (marker : Option Field) :
    Reads (deleteText e marker) (deleteRead e marker ++
      conditionClause "WHERE" (keyedParts (keyColumns e) 1 marker)) := by
  have hkeyed := reads_keyed marker hkeys 1
  rw [conditionClause, if_neg (keyedParts_ne_nil marker hkeys 1)]
  cases marker with
  | none =>
    rw [liveText, String.append_empty] at hkeyed
    unfold deleteText
    dsimp only
    simp only [String.append_assoc]
    exact ends_delete.append ((reads_quoteName e.table.name).behind (setsOff_where.behind hkeyed))
  | some f =>
    unfold deleteText
    dsimp only
    simp only [String.append_assoc]
    exact ends_update.append ((reads_quoteName e.table.name).behind
      (setsOff_set.behind ((reads_quoteName f.column).behind (setsOff_now.behind hkeyed))))

/-- A row is deleted by its key, and only if it is not marked. -/
theorem lexemes_delete (h : (Statements.ofEntity e paginate softDelete).delete = some sql) :
    keyColumns e ≠ [] ∧ lexemes sql = deleteRead e (marker? e softDelete) ++
      conditionClause "WHERE" (keyedParts (keyColumns e) 1 (marker? e softDelete)) := by
  rw [delete_eq] at h
  obtain ⟨hkeys, rfl⟩ := eq_of_keyed h
  exact ⟨hkeys, (reads_deleteText hkeys _).lexemes⟩

-- ---------------------------------------------------------------------------
-- Creating rows
-- ---------------------------------------------------------------------------

/-- Parameters with commas between them. -/
def parametersRead (numbers : List Nat) : List Lexeme :=
  [.symbol ','].intercalate (numbers.map fun n => [.parameter n])

/-- What a statement that creates a row is read as. -/
def insertRead (e : Entity) : List Lexeme :=
  .word "INSERT" :: .word "INTO" :: .name e.table.name ::
    if (inputColumns e).isEmpty then .word "DEFAULT" :: .word "VALUES" :: returningRead e
    else .symbol '(' :: (namesRead (inputColumns e) ++ (.symbol ')' :: .word "VALUES" ::
      .symbol '(' :: (parametersRead (List.range' 1 (inputColumns e).length) ++
        (.symbol ')' :: returningRead e))))

/-- Consecutive numbers, whether they are counted by places or by themselves. -/
theorem mapIdx_numbers {α β : Type} (f : Nat → β) (xs : List α) (first : Nat) :
    (xs.mapIdx fun i _ => f (first + i)) = (List.range' first xs.length).map f := by
  induction xs generalizing first with
  | nil => rfl
  | cons x rest ih =>
    have hnext : (rest.mapIdx fun i _ => f (first + (i + 1))) =
        rest.mapIdx fun i _ => f (first + 1 + i) :=
      List.mapIdx_eq_mapIdx_iff.2 fun i hi => by rw [Nat.add_comm i 1, Nat.add_assoc]
    rw [List.mapIdx_cons, hnext, ih]
    rfl

/-- The parameters of a row in parentheses are numbered from one on. -/
theorem reads_parameters (columns : List String) :
    Reads (", ".intercalate (columns.mapIdx fun i _ => parameter (i + 1)))
      (parametersRead (List.range' 1 columns.length)) := by
  rw [parametersRead, ← mapIdx_numbers (fun n => [Lexeme.parameter n]) columns]
  exact reads_intercalate setsOff_comma (forall₂_mapIdx (fun i _ => by
    rw [Nat.add_comm]
    exact reads_parameter (1 + i)) columns)

/-- The statement that inserts a row. -/
theorem insert_eq : (Statements.ofEntity e paginate softDelete).insert =
    if (inputColumns e).isEmpty then
      "INSERT INTO " ++ quoteName e.table.name ++ " DEFAULT VALUES RETURNING " ++
        nameList (e.fields.map (·.column))
    else
      "INSERT INTO " ++ quoteName e.table.name ++ " (" ++ nameList (inputColumns e) ++
        ") VALUES (" ++ ", ".intercalate ((inputColumns e).mapIdx fun i _ => parameter (i + 1)) ++
          ") RETURNING " ++ nameList (e.fields.map (·.column)) :=
  rfl

/-- An insertion names each input column, or takes defaults if there is none. -/
theorem lexemes_insert :
    lexemes (Statements.ofEntity e paginate softDelete).insert = insertRead e := by
  have hcolumns := reads_nameList (e.fields.map (·.column))
  have htable := reads_quoteName e.table.name
  rw [insert_eq, insertRead]
  split
  · have hinsert := ends_insert.append (htable.behind (setsOff_default.behind hcolumns))
    simp only [← String.append_assoc] at hinsert
    exact hinsert.lexemes
  · have hvalues := (reads_parameters (inputColumns e)).behind
      (setsOff_closeReturning.behind hcolumns)
    have hinsert := ends_insert.append (htable.behind (setsOff_open.behind
      ((reads_nameList (inputColumns e)).behind (setsOff_values.behind hvalues))))
    have hlexemes := hinsert.lexemes
    simp only [← String.append_assoc] at hlexemes
    simpa only [returningRead, List.cons_append, List.nil_append] using hlexemes

-- ---------------------------------------------------------------------------
-- Related rows
-- ---------------------------------------------------------------------------

/-- A column behind a qualifier. -/
def qualified (qualifier column : String) : List Lexeme :=
  [.word qualifier, .symbol '.', .name column]

/-- The columns of a table that are compared with the parameters from one on. -/
def comparedParts (qualifier : String) (columns : List String) : List (List Lexeme) :=
  columns.mapIdx fun i c => comparison [.word qualifier, .symbol '.'] c (1 + i)

/-- The columns of a junction that are compared with those of the table behind it. -/
def joinedParts (pairs : List (String × String)) : List (List Lexeme) :=
  pairs.map fun pair => qualified "j" pair.1 ++ .symbol '=' :: qualified "t" pair.2

/-- The beginning of a statement that loads related rows. -/
def relatedRead (r : Relation) : List Lexeme :=
  [Lexeme.word "SELECT", Lexeme.word "t", Lexeme.symbol '.', Lexeme.symbol '*',
    Lexeme.word "FROM", Lexeme.name r.targetTable, Lexeme.word "t"]

/-- The columns of a junction are compared with those of the table behind it. -/
theorem reads_joinedParts (pairs : List (String × String)) :
    Reads (" AND ".intercalate
        (pairs.map fun (j, t) => "j." ++ quoteName j ++ " = t." ++ quoteName t))
      ([.word "AND"].intercalate (joinedParts pairs)) := by
  refine reads_intercalate setsOff_and ?_
  rw [joinedParts, List.forall₂_map_left_iff, List.forall₂_map_right_iff, List.forall₂_same]
  intro pair _
  simp only [String.append_assoc]
  exact ends_junction.append ((reads_quoteName pair.1).behind
    (setsOff_equalsTarget.behind (reads_quoteName pair.2)))

/-- Rows of another table are read by the columns that refer to them. -/
theorem lexemes_related_of_direct {r : Relation} (h : r.via = none) : lexemes (related r) =
    relatedRead r ++ Lexeme.word "WHERE" ::
      ([Lexeme.word "AND"].intercalate (comparedParts "t" r.remoteColumns) ++ []) := by
  have hrelated := ends_selectAll.append ((reads_quoteName r.targetTable).behind
    (setsOff_whereTarget.behind (reads_predicate ends_target r.remoteColumns 1)))
  simp only [← String.append_assoc] at hrelated
  rw [related, h, List.append_nil]
  exact hrelated.lexemes

/-- Rows behind a junction are read by the columns of the junction. -/
theorem lexemes_related_of_junction {r : Relation} {junction : Link} (h : r.via = some junction) :
    lexemes (related r) =
      (relatedRead r ++ [Lexeme.word "JOIN", Lexeme.name junction.table, Lexeme.word "j"]) ++
        Lexeme.word "ON" ::
          ([Lexeme.word "AND"].intercalate
            (joinedParts (junction.remoteColumns.zip r.remoteColumns)) ++
            Lexeme.word "WHERE" ::
              ([Lexeme.word "AND"].intercalate (comparedParts "j" junction.localColumns) ++
                [])) := by
  have hwhere := setsOff_where.behind (reads_predicate ends_junction junction.localColumns 1)
  have hjoin := setsOff_on.behind
    ((reads_joinedParts (junction.remoteColumns.zip r.remoteColumns)).behind hwhere)
  have hrelated := ends_selectAll.append ((reads_quoteName r.targetTable).behind
    (setsOff_joining.behind ((reads_quoteName junction.table).behind hjoin)))
  simp only [← String.append_assoc] at hrelated
  rw [related, h, List.append_nil]
  exact hrelated.lexemes

end Statements

end CrudGen.Sql
