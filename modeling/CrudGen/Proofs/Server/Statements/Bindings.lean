import CrudGen.Proofs.Server.Statements.Clauses

/-!
# Statements — what the parameters stand for

The parameters of a statement are numbered in the order in which its values are bound: first those
of the inputs, then those of the key.

Main results:

* `conditions_list`, `conditions_count`, `conditions_find`, `conditions_update`,
  `conditions_delete`, `conditions_related_of_direct`, `conditions_related_of_junction` — the
  conditions that a row has to meet.
* `assignments_update`, `inserted_insert` — the parameters that columns are set from.
* `parameters_list` and the like — no other parameter occurs.
-/

namespace CrudGen.Sql

open Lexeme

-- ---------------------------------------------------------------------------
-- Conditions
-- ---------------------------------------------------------------------------

/-- The conditions on a key whose parameters are numbered from `first` on. -/
def keyConditions (keys : List String) (first : Nat) : List Condition :=
  keys.mapIdx fun i c => .equals "" c (first + i)

/-- The condition that a row is not marked as deleted. -/
def liveConditions (marker : Option Field) : List Condition :=
  marker.toList.map fun f => .isNull "" f.column

/-- No word of a clause stands among names. -/
theorem word_not_mem_namesRead (word : String) (names : List String) :
    .word word ∉ namesRead names := by
  intro hmem
  rcases Text.exists_of_mem_intercalate hmem with hcomma | ⟨text, htext, hword⟩
  · simp at hcomma
  · obtain ⟨name, -, rfl⟩ := List.mem_map.1 htext
    simp at hword

/-- Conditions are no clauses. -/
def InnerParts (parts : List (List Lexeme)) : Prop :=
  ∀ part ∈ parts, part ≠ [] ∧ ∀ l ∈ part, l.Inner

/-- No clause starts among conditions. -/
theorem InnerParts.not_mem {parts : List (List Lexeme)} (h : InnerParts parts) {word : String}
    (hword : (Lexeme.word word).startsClause = true) :
    .word word ∉ [.word "AND"].intercalate parts := by
  intro hmem
  rcases Text.exists_of_mem_intercalate hmem with hand | ⟨part, hpart, hl⟩
  · rw [List.mem_singleton.1 hand] at hword
    exact absurd hword (by decide)
  · rw [((h part hpart).2 _ hl).1] at hword
    cases hword

/-- A name starts no clause and joins no conditions. -/
theorem inner_name (name : String) : (Lexeme.name name).Inner :=
  ⟨rfl, by simp⟩

/-- A parameter starts no clause and joins no conditions. -/
theorem inner_parameter (n : Nat) : (Lexeme.parameter n).Inner :=
  ⟨rfl, by simp⟩

/-- A symbol starts no clause and joins no conditions. -/
theorem inner_symbol (c : Char) : (Lexeme.symbol c).Inner :=
  ⟨rfl, by simp⟩

/-- A comparison stays inside its clause. -/
theorem inner_comparison {lq : List Lexeme} (hq : ∀ l ∈ lq, l.Inner) (column : String) (n : Nat) :
    comparison lq column n ≠ [] ∧ ∀ l ∈ comparison lq column n, l.Inner := by
  refine ⟨by simp [comparison], ?_⟩
  rw [comparison, List.forall_mem_append]
  simpa using ⟨hq, inner_name column, inner_symbol '=', inner_parameter n⟩

theorem innerParts_comparisons {lq : List Lexeme} (hq : ∀ l ∈ lq, l.Inner) (columns : List String)
    (first : Nat) : InnerParts (columns.mapIdx fun i c => comparison lq c (first + i)) := by
  intro part hpart
  obtain ⟨i, hi, rfl⟩ := List.mem_mapIdx.1 hpart
  exact inner_comparison hq _ _

theorem innerParts_living (marker : Option Field) : InnerParts (living marker) := by
  intro part hpart
  obtain ⟨f, -, rfl⟩ := List.mem_map.1 hpart
  refine ⟨by simp, ?_⟩
  rw [List.forall_mem_cons]
  exact ⟨inner_name f.column, by decide⟩

theorem innerParts_keyed (keys : List String) (first : Nat) (marker : Option Field) :
    InnerParts (keyedParts keys first marker) := by
  intro part hpart
  rcases List.mem_append.1 hpart with hpart | hpart
  · exact innerParts_comparisons (by simp) keys first part hpart
  · exact innerParts_living marker part hpart

/-- What is made of each element at its place, after each has been made from one before. -/
theorem map_mapIdx {α β γ : Type} (f : β → γ) (g : Nat → α → β) (xs : List α) :
    (xs.mapIdx g).map f = xs.mapIdx fun i x => f (g i x) :=
  List.ext_getElem (by simp) (by simp)

/-- The test of the mark is read as the condition on live rows. -/
theorem ofLexemes_living (marker : Option Field) :
    (living marker).map Condition.ofLexemes = liveConditions marker := by
  cases marker <;> rfl

/-- The key of a row is read as one comparison for each of its columns. -/
theorem ofLexemes_keyed (keys : List String) (first : Nat) (marker : Option Field) :
    (keyedParts keys first marker).map Condition.ofLexemes =
      keyConditions keys first ++ liveConditions marker := by
  rw [keyedParts, List.map_append, ofLexemes_living, map_mapIdx]
  rfl

/-- A clause of conditions is the only one that starts in it. -/
theorem not_mem_conditionClause {start word : String} {parts : List (List Lexeme)}
    (hparts : InnerParts parts) (hword : (Lexeme.word word).startsClause = true)
    (hother : word ≠ start) : .word word ∉ conditionClause start parts := by
  rw [conditionClause]
  split
  · simp
  · rw [List.mem_cons, Lexeme.word.injEq, not_or]
    exact ⟨hother, hparts.not_mem hword⟩

/-- A statement with a clause of conditions and no other. -/
theorem conditions_of_lexemes {sql : String} {before after : List Lexeme}
    {parts : List (List Lexeme)}
    (h : lexemes sql = before ++ (conditionClause "WHERE" parts ++ after))
    (hparts : InnerParts parts)
    (hnone : ∀ word ∈ ["ON", "WHERE"], .word word ∉ before ++ after)
    (hafter : ∀ l ∈ after.head?, l.startsClause = true) :
    conditions sql = parts.map .ofLexemes := by
  have hon : .word "ON" ∉ lexemes sql := by
    have hothers := hnone "ON" (by simp)
    have hclause : .word "ON" ∉ conditionClause "WHERE" parts :=
      not_mem_conditionClause hparts (by decide) (by decide)
    rw [h]
    simp only [List.mem_append, not_or] at hothers ⊢
    exact ⟨hothers.1, hclause, hothers.2⟩
  have hwhere := hnone "WHERE" (by simp)
  rw [List.mem_append, not_or] at hwhere
  rw [conditions, conditionsIn, clause_of_not_mem hon, h,
    conditionsIn_conditionClause hwhere.1 hparts hafter hwhere.2]
  rfl

section Conditions

variable {e : Entity} {paginate softDelete : Bool} {sql : String}

/-- A selection has no clauses but those of its columns and its table. -/
theorem word_mem_selectRead {word : String} (h : .word word ∈ selectRead e) :
    word ∈ ["SELECT", "FROM"] := by
  simpa [selectRead, word_not_mem_namesRead] using h

/-- A page has no clauses but those of its order and its bounds. -/
theorem word_mem_pageRead {word : String} (h : .word word ∈ pageRead e paginate) :
    word ∈ ["ORDER", "BY", "LIMIT", "OFFSET"] := by
  rw [pageRead, List.mem_append] at h
  rcases h with h | h
  · split at h
    · cases h
    · simp only [List.mem_cons, Lexeme.word.injEq, word_not_mem_namesRead, or_false] at h
      rcases h with rfl | rfl <;> simp
  · split at h
    · simp only [List.mem_cons, Lexeme.word.injEq, reduceCtorEq, List.not_mem_nil, or_false,
        false_or] at h
      rcases h with rfl | rfl <;> simp
    · cases h

/-- What follows the conditions of a list is a clause of its own. -/
theorem startsClause_head?_pageRead :
    ∀ l ∈ (pageRead e paginate).head?, l.startsClause = true := by
  rw [pageRead]
  split
  · cases paginate with
    | false => simp
    | true => decide
  · exact fun l hl => Option.some_inj.1 hl ▸ rfl

/-- A list shows the rows that are not marked, and all rows if none are. -/
theorem conditions_list : conditions (Statements.ofEntity e paginate softDelete).list =
    liveConditions (marker? e softDelete) := by
  rw [conditions_of_lexemes (lexemes_list e paginate softDelete) (innerParts_living _) ?_
    startsClause_head?_pageRead, ofLexemes_living]
  intro word hword hmem
  rcases List.mem_append.1 hmem with hselect | hpage
  · have hall : ∀ word ∈ ["ON", "WHERE"], word ∉ ["SELECT", "FROM"] := by decide
    exact hall word hword (word_mem_selectRead hselect)
  · have hall : ∀ word ∈ ["ON", "WHERE"], word ∉ ["ORDER", "BY", "LIMIT", "OFFSET"] := by decide
    exact hall word hword (word_mem_pageRead hpage)

/-- Rows are listed from an offset on and up to a limit, if there are pages. -/
theorem page_list :
    let read := lexemes (Statements.ofEntity e true softDelete).list
    clause "LIMIT" read = [Lexeme.parameter 1] ∧ clause "OFFSET" read = [Lexeme.parameter 2] := by
  let order := if (keyColumns e).isEmpty then []
    else Lexeme.word "ORDER" :: Lexeme.word "BY" :: namesRead (keyColumns e)
  let before := selectRead e ++ (conditionClause "WHERE" (living (marker? e softDelete)) ++ order)
  have hread : lexemes (Statements.ofEntity e true softDelete).list =
      before ++ [Lexeme.word "LIMIT", Lexeme.parameter 1, Lexeme.word "OFFSET",
        Lexeme.parameter 2] := by
    rw [lexemes_list, pageRead, if_pos rfl, List.append_assoc, List.append_assoc]
  -- neither word occurs before the page, so the clauses are found where they stand
  have hbefore : ∀ word ∈ ["LIMIT", "OFFSET"], Lexeme.word word ∉ before := by
    intro word hword hmem
    rcases List.mem_append.1 hmem with hselect | hmem
    · have hall : ∀ word ∈ ["LIMIT", "OFFSET"], word ∉ ["SELECT", "FROM"] := by decide
      exact hall word hword (word_mem_selectRead hselect)
    rcases List.mem_append.1 hmem with hlive | horder
    · have hall : ∀ word ∈ ["LIMIT", "OFFSET"],
          (Lexeme.word word).startsClause = true ∧ word ≠ "WHERE" := by decide
      obtain ⟨hclause, hother⟩ := hall word hword
      -- a condition clause holds one word that opens a clause, its own
      exact not_mem_conditionClause (innerParts_living _) hclause hother hlive
    · have hall : ∀ word ∈ ["LIMIT", "OFFSET"], word ∉ ["ORDER", "BY"] := by decide
      refine hall word hword ?_
      simp only [order] at horder
      split at horder
      · cases horder
      · simpa [word_not_mem_namesRead] using horder
  have hlimit : clause "LIMIT" (before ++ Lexeme.word "LIMIT" ::
      ([Lexeme.parameter 1] ++ [Lexeme.word "OFFSET", Lexeme.parameter 2])) = [Lexeme.parameter 1] :=
    clause_append (hbefore _ (by simp)) (by simp [Lexeme.startsClause])
      fun l hl => Option.some_inj.1 hl ▸ rfl
  have hoffset : clause "OFFSET" ((before ++ [Lexeme.word "LIMIT", Lexeme.parameter 1]) ++
      Lexeme.word "OFFSET" :: ([Lexeme.parameter 2] ++ [])) = [Lexeme.parameter 2] :=
    clause_append (by simp [hbefore]) (by simp [Lexeme.startsClause]) (by simp)
  rw [List.append_assoc] at hoffset
  dsimp only
  rw [hread]
  exact ⟨hlimit, hoffset⟩

/-- A count counts the rows that a list shows. -/
theorem conditions_count : conditions (Statements.ofEntity e paginate softDelete).count =
    liveConditions (marker? e softDelete) := by
  have hcount := lexemes_count e paginate softDelete
  rw [← List.append_nil (conditionClause _ _)] at hcount
  rw [conditions_of_lexemes hcount (innerParts_living _), ofLexemes_living]
  · simp [countRead]
  · simp

/-- A row is found by each column of its key, in their order. -/
theorem conditions_find (h : (Statements.ofEntity e paginate softDelete).find = some sql) :
    conditions sql = keyConditions (keyColumns e) 1 ++ liveConditions (marker? e softDelete) := by
  obtain ⟨-, hfind⟩ := lexemes_find h
  rw [← List.append_nil (conditionClause _ _)] at hfind
  rw [conditions_of_lexemes hfind (innerParts_keyed _ _ _), ofLexemes_keyed]
  · simp [selectRead, word_not_mem_namesRead]
  · simp

/-- A row is deleted by each column of its key. -/
theorem conditions_delete (h : (Statements.ofEntity e paginate softDelete).delete = some sql) :
    conditions sql = keyConditions (keyColumns e) 1 ++ liveConditions (marker? e softDelete) := by
  obtain ⟨-, hdelete⟩ := lexemes_delete h
  rw [← List.append_nil (conditionClause _ _)] at hdelete
  rw [conditions_of_lexemes hdelete (innerParts_keyed _ _ _), ofLexemes_keyed]
  · cases marker? e softDelete <;> simp [deleteRead]
  · simp

/-- A change has no clauses but those of its table and its columns. -/
theorem word_mem_setRead {word : String} (h : .word word ∈ setRead e) :
    word ∈ ["UPDATE", "SET", "COALESCE"] := by
  simp only [setRead, List.mem_cons, Lexeme.word.injEq, reduceCtorEq, false_or] at h
  rcases h with rfl | rfl | h
  · simp
  · simp
  · rcases Text.exists_of_mem_intercalate h with hcomma | ⟨part, hpart, hl⟩
    · simp at hcomma
    · obtain ⟨i, hi, rfl⟩ := List.mem_mapIdx.1 hpart
      simp only [assignment, List.mem_cons, Lexeme.word.injEq, reduceCtorEq, List.not_mem_nil,
        or_false, false_or] at hl
      simp [hl]

/-- A row is changed by each column of its key, whose parameters stand behind those of the inputs.
-/
theorem conditions_update (h : (Statements.ofEntity e paginate softDelete).update = some sql) :
    conditions sql = keyConditions (keyColumns e) ((inputColumns e).length + 1) ++
      liveConditions (marker? e softDelete) := by
  obtain ⟨-, -, hupdate⟩ := lexemes_update h
  rw [conditions_of_lexemes hupdate (innerParts_keyed _ _ _), ofLexemes_keyed]
  · intro word hword hmem
    rcases List.mem_append.1 hmem with hset | hreturning
    · have hall : ∀ word ∈ ["ON", "WHERE"], word ∉ ["UPDATE", "SET", "COALESCE"] := by decide
      exact hall word hword (word_mem_setRead hset)
    · simp only [returningRead, List.mem_cons, Lexeme.word.injEq, word_not_mem_namesRead,
        or_false] at hreturning
      subst hreturning
      exact absurd hword (by decide)
  · exact fun l hl => Option.some_inj.1 hl ▸ rfl

/-- Comparisons with parameters stay inside their clause, with a qualifier too. -/
theorem innerParts_compared {qualifier : String} (hq : (Lexeme.word qualifier).Inner)
    (columns : List String) : InnerParts (comparedParts qualifier columns) :=
  innerParts_comparisons (by simpa using ⟨hq, inner_symbol '.'⟩) columns 1

theorem innerParts_joined (pairs : List (String × String)) : InnerParts (joinedParts pairs) := by
  intro part hpart
  obtain ⟨pair, -, rfl⟩ := List.mem_map.1 hpart
  have hj : (Lexeme.word "j").Inner := by decide
  have ht : (Lexeme.word "t").Inner := by decide
  refine ⟨by simp [qualified], ?_⟩
  simpa [qualified] using
    ⟨hj, inner_symbol '.', inner_name _, inner_symbol '=', ht, inner_symbol '.', inner_name _⟩

/-- Comparisons are read with their qualifier, and with parameters from one on. -/
theorem ofLexemes_compared (qualifier : String) (columns : List String) :
    (comparedParts qualifier columns).map Condition.ofLexemes =
      columns.mapIdx fun i c => .equals qualifier c (1 + i) := by
  rw [comparedParts, map_mapIdx]
  rfl

/-- Comparisons of two columns are read with both qualifiers. -/
theorem ofLexemes_joined (pairs : List (String × String)) :
    (joinedParts pairs).map Condition.ofLexemes =
      pairs.map fun pair => .joined "j" pair.1 "t" pair.2 := by
  rw [joinedParts, List.map_map]
  rfl

/-- The rows of another table are found by its columns. -/
theorem conditions_related_of_direct {r : Relation} (h : r.via = none) : conditions (related r) =
    r.remoteColumns.mapIdx fun i c => .equals "t" c (1 + i) := by
  have hparts := innerParts_compared (by decide : (Lexeme.word "t").Inner) r.remoteColumns
  have hread := lexemes_related_of_direct h
  have hon : .word "ON" ∉ lexemes (related r) := by
    rw [hread]
    simpa [relatedRead] using hparts.not_mem (by decide : (Lexeme.word "ON").startsClause = true)
  rw [conditions, conditionsIn, clause_of_not_mem hon, hread,
    conditionsIn_append (by simp [relatedRead]) hparts (by simp), ofLexemes_compared]
  rfl

/-- The rows behind a junction are joined to it, and found by the columns of the junction that refer
to this side. -/
theorem conditions_related_of_junction {r : Relation} {junction : Link}
    (h : r.via = some junction) : conditions (related r) =
      ((junction.remoteColumns.zip r.remoteColumns).map fun pair =>
        Condition.joined "j" pair.1 "t" pair.2) ++
      junction.localColumns.mapIdx fun i c => Condition.equals "j" c (1 + i) := by
  have hcompared := innerParts_compared (by decide : (Lexeme.word "j").Inner) junction.localColumns
  have hjoined := innerParts_joined (junction.remoteColumns.zip r.remoteColumns)
  have hread := lexemes_related_of_junction h
  have hwhere : conditionsIn "WHERE" (lexemes (related r)) =
      junction.localColumns.mapIdx fun i c => Condition.equals "j" c (1 + i) := by
    rw [hread, ← List.cons_append, ← List.append_assoc, ← ofLexemes_compared]
    refine conditionsIn_append ?_ hcompared (by simp)
    simpa [relatedRead] using hjoined.not_mem (by decide : (Lexeme.word "WHERE").startsClause = true)
  rw [conditions, hwhere, hread, conditionsIn_append (by simp [relatedRead]) hjoined ?_,
    ofLexemes_joined]
  exact fun l hl => Option.some_inj.1 hl ▸ rfl

end Conditions

-- ---------------------------------------------------------------------------
-- Columns that are set
-- ---------------------------------------------------------------------------

/-- The columns that are set from a parameter unless it is null, each with the number of it. -/
def assignmentsIn : List Lexeme → List (String × Nat)
  | .name c :: .symbol '=' :: .word "COALESCE" :: .symbol '(' :: .parameter n :: rest =>
    (c, n) :: assignmentsIn rest
  | _ :: rest => assignmentsIn rest
  | [] => []

/-- The columns that a statement sets from parameters. -/
def assignments (sql : String) : List (String × Nat) :=
  assignmentsIn (clause "SET" (lexemes sql))

/-- What stands between the first parentheses, cut at commas. -/
def parenthesized (ls : List Lexeme) : List (List Lexeme) :=
  ((ls.dropWhile (· != .symbol '(')).tail.takeWhile (· != .symbol ')')).splitOn (.symbol ',')

/-- The columns that a statement inserts, and the values that it gives them. -/
def inserted (sql : String) : List (List Lexeme) × List (List Lexeme) :=
  (parenthesized (lexemes sql), parenthesized (clause "VALUES" (lexemes sql)))

/-- The assignments of a change are read one by one. -/
theorem assignmentsIn_intercalate (parts : List (String × Nat)) :
    assignmentsIn ([.symbol ','].intercalate (parts.map fun part => assignment part.1 part.2)) =
      parts := by
  induction parts with
  | nil => rfl
  | cons part rest ih =>
    cases rest with
    | nil => rfl
    | cons next more =>
      rw [List.map_cons, List.map_cons, List.intercalate_cons_cons]
      exact congrArg (part :: ·) ih

/-- What stands between the first pair of parentheses is split at its commas. -/
theorem parenthesized_append (before after : List Lexeme) {parts : List (List Lexeme)}
    (hbefore : .symbol '(' ∉ before) (hsome : parts ≠ [])
    (hparts : ∀ part ∈ parts, .symbol ')' ∉ part ∧ .symbol ',' ∉ part) :
    parenthesized (before ++ .symbol '(' :: ([.symbol ','].intercalate parts ++
      .symbol ')' :: after)) = parts := by
  have hclosed : .symbol ')' ∉ [.symbol ','].intercalate parts := by
    intro hmem
    rcases Text.exists_of_mem_intercalate hmem with hcomma | ⟨part, hpart, hl⟩
    · simp at hcomma
    · exact (hparts part hpart).1 hl
  rw [parenthesized, Text.dropWhile_ne_append hbefore, List.tail_cons,
    Text.takeWhile_ne_append hclosed]
  exact List.splitOn_intercalate _ (fun part hpart => (hparts part hpart).2) hsome

section Columns

variable {e : Entity} {paginate softDelete : Bool} {sql : String}

/-- No clause starts in an assignment. -/
theorem startsClause_assignment (column : String) (n : Nat) :
    ∀ l ∈ assignment column n, l.startsClause = false := by
  have hword : (Lexeme.word "COALESCE").startsClause = false := by decide
  rw [assignment]
  simpa using ⟨rfl, rfl, hword, rfl, rfl, rfl, rfl, rfl⟩

/-- No clause starts among parameters. -/
theorem startsClause_parametersRead (numbers : List Nat) :
    ∀ l ∈ parametersRead numbers, l.startsClause = false := by
  intro l hl
  rcases Text.exists_of_mem_intercalate hl with hcomma | ⟨part, hpart, hl⟩
  · rw [List.mem_singleton.1 hcomma]
    rfl
  · obtain ⟨n, -, rfl⟩ := List.mem_map.1 hpart
    rw [List.mem_singleton.1 hl]
    rfl

/-- The inputs are set in order. -/
theorem assignments_update (h : (Statements.ofEntity e paginate softDelete).update = some sql) :
    assignments sql = (inputColumns e).mapIdx fun i c => (c, i + 1) := by
  obtain ⟨-, hkeys, hupdate⟩ := lexemes_update h
  -- commas and assignments start no clause, so `SET` reaches to `WHERE`
  have hbody : ∀ l ∈ [Lexeme.symbol ','].intercalate
      ((inputColumns e).mapIdx fun i c => assignment c (i + 1)), l.startsClause = false := by
    intro l hl
    rcases Text.exists_of_mem_intercalate hl with hcomma | ⟨part, hpart, hl⟩
    · rw [List.mem_singleton.1 hcomma]
      rfl
    · obtain ⟨i, hi, rfl⟩ := List.mem_mapIdx.1 hpart
      exact startsClause_assignment _ _ l hl
  have hread : lexemes sql = [Lexeme.word "UPDATE", Lexeme.name e.table.name] ++ Lexeme.word "SET" ::
      ([Lexeme.symbol ','].intercalate ((inputColumns e).mapIdx fun i c => assignment c (i + 1)) ++
        Lexeme.word "WHERE" :: ([Lexeme.word "AND"].intercalate (keyedParts (keyColumns e)
          ((inputColumns e).length + 1) (marker? e softDelete)) ++ returningRead e)) := by
    rw [hupdate, conditionClause, if_neg (keyedParts_ne_nil _ hkeys _)]
    simp [setRead]
  have hparts : ((inputColumns e).mapIdx fun i c => assignment c (i + 1)) =
      ((inputColumns e).mapIdx fun i c => (c, i + 1)).map fun part => assignment part.1 part.2 := by
    rw [map_mapIdx]
  rw [assignments, hread, clause_append (by simp) hbody ?_, hparts, assignmentsIn_intercalate]
  exact fun l hl => Option.some_inj.1 hl ▸ rfl

/-- The inputs are inserted in order. -/
theorem inserted_insert (hinputs : inputColumns e ≠ []) :
    inserted (Statements.ofEntity e paginate softDelete).insert =
      ((inputColumns e).map fun c => [Lexeme.name c],
        (List.range' 1 (inputColumns e).length).map fun n => [Lexeme.parameter n]) := by
  have hinsert : lexemes (Statements.ofEntity e paginate softDelete).insert = insertRead e :=
    lexemes_insert
  rw [insertRead, if_neg (mt List.isEmpty_iff.1 hinputs)] at hinsert
  -- the first list in brackets is that of the columns
  have hcolumns : parenthesized (lexemes (Statements.ofEntity e paginate softDelete).insert) =
      (inputColumns e).map fun c => [Lexeme.name c] := by
    rw [hinsert]
    exact parenthesized_append
      [Lexeme.word "INSERT", Lexeme.word "INTO", Lexeme.name e.table.name] _ (by simp)
      (by simpa using hinputs) (by simp)
  -- the second follows the word `VALUES` and ends where the next clause starts
  have hvalues : clause "VALUES" (lexemes (Statements.ofEntity e paginate softDelete).insert) =
      Lexeme.symbol '(' ::
        (parametersRead (List.range' 1 (inputColumns e).length) ++ [Lexeme.symbol ')']) := by
    have hbefore : Lexeme.word "VALUES" ∉
        [Lexeme.word "INSERT", Lexeme.word "INTO", Lexeme.name e.table.name, Lexeme.symbol '('] ++
          (namesRead (inputColumns e) ++ [Lexeme.symbol ')']) := by
      simp [word_not_mem_namesRead]
    have hbody : ∀ l ∈ Lexeme.symbol '(' ::
        (parametersRead (List.range' 1 (inputColumns e).length) ++ [Lexeme.symbol ')']),
        l.startsClause = false := by
      intro l hl
      simp only [List.mem_cons, List.mem_append, List.not_mem_nil, or_false] at hl
      rcases hl with rfl | hl | rfl
      · rfl
      · exact startsClause_parametersRead _ l hl
      · rfl
    have hafter : ∀ l ∈ (returningRead e).head?, l.startsClause = true :=
      fun l hl => Option.some_inj.1 hl ▸ rfl
    rw [hinsert, ← clause_append hbefore hbody hafter]
    simp
  have hparts : ∀ part ∈ (List.range' 1 (inputColumns e).length).map fun n => [Lexeme.parameter n],
      Lexeme.symbol ')' ∉ part ∧ Lexeme.symbol ',' ∉ part := by
    intro part hpart
    obtain ⟨n, -, rfl⟩ := List.mem_map.1 hpart
    simp
  have hbound : parenthesized (Lexeme.symbol '(' ::
      (parametersRead (List.range' 1 (inputColumns e).length) ++ [Lexeme.symbol ')'])) =
        (List.range' 1 (inputColumns e).length).map fun n => [Lexeme.parameter n] :=
    parenthesized_append [] [] (by simp) (by simpa using hinputs) hparts
  rw [inserted, hcolumns, hvalues, hbound]

end Columns

-- ---------------------------------------------------------------------------
-- Parameters
-- ---------------------------------------------------------------------------

/-- The parameters of a statement in order. -/
def parameters (sql : String) : List Nat :=
  parametersIn (lexemes sql)

@[simp] theorem parametersIn_nil : parametersIn [] = [] :=
  rfl

@[simp] theorem parametersIn_word (word : String) (ls : List Lexeme) :
    parametersIn (.word word :: ls) = parametersIn ls :=
  rfl

@[simp] theorem parametersIn_name (name : String) (ls : List Lexeme) :
    parametersIn (.name name :: ls) = parametersIn ls :=
  rfl

@[simp] theorem parametersIn_symbol (c : Char) (ls : List Lexeme) :
    parametersIn (.symbol c :: ls) = parametersIn ls :=
  rfl

@[simp] theorem parametersIn_parameter (n : Nat) (ls : List Lexeme) :
    parametersIn (.parameter n :: ls) = n :: parametersIn ls :=
  rfl

/-- The parameters of a clause are those of its conditions. -/
theorem parametersIn_conditionClause (start : String) (parts : List (List Lexeme)) :
    parametersIn (conditionClause start parts) = parts.flatMap parametersIn := by
  rw [conditionClause]
  split
  · rename_i hempty
    rw [hempty]
    rfl
  · exact parametersIn_intercalate rfl parts

/-- The test of the mark takes no parameter. -/
theorem parametersIn_living (marker : Option Field) :
    parametersIn (conditionClause "WHERE" (living marker)) = [] := by
  rw [parametersIn_conditionClause]
  cases marker <;> rfl

/-- The conditions on the key take one parameter for each column, from `first` on. -/
theorem parametersIn_keyed (keys : List String) (first : Nat) (marker : Option Field) :
    parametersIn (conditionClause "WHERE" (keyedParts keys first marker)) =
      List.range' first keys.length := by
  have hliving : (living marker).flatMap parametersIn = [] := by cases marker <;> rfl
  rw [parametersIn_conditionClause, keyedParts, List.flatMap_append, hliving, List.append_nil,
    parametersIn_comparisons rfl]

/-- Parameters in a row are read as they are numbered. -/
theorem parametersIn_parametersRead (numbers : List Nat) :
    parametersIn (parametersRead numbers) = numbers := by
  rw [parametersRead, parametersIn_intercalate rfl, List.flatMap_map]
  exact List.flatMap_pure_eq_map id numbers |>.trans (List.map_id _)

section Parameters

variable (e : Entity) {paginate softDelete : Bool} {sql : String}

/-- A selection takes no parameters before its conditions. -/
@[simp] theorem parametersIn_selectRead : parametersIn (selectRead e) = [] := by
  simp [selectRead]

/-- The columns that are returned take no parameters. -/
@[simp] theorem parametersIn_returningRead : parametersIn (returningRead e) = [] := by
  rw [returningRead, parametersIn_word, parametersIn_namesRead]

/-- Rows are listed with two parameters if there are pages, else with none. -/
theorem parameters_list : parameters (Statements.ofEntity e paginate softDelete).list =
    if paginate then [1, 2] else [] := by
  have hpage : parametersIn (pageRead e paginate) = if paginate then [1, 2] else [] := by
    have horder : parametersIn (if (keyColumns e).isEmpty then []
        else .word "ORDER" :: .word "BY" :: namesRead (keyColumns e)) = [] := by
      split
      · rfl
      · rw [parametersIn_word, parametersIn_word, parametersIn_namesRead]
    rw [pageRead, parametersIn_append, horder]
    cases paginate <;> rfl
  rw [parameters, lexemes_list, parametersIn_append, parametersIn_append, parametersIn_selectRead,
    parametersIn_living, hpage, List.nil_append, List.nil_append]

/-- A count takes no parameters. -/
theorem parameters_count : parameters (Statements.ofEntity e paginate softDelete).count = [] := by
  rw [parameters, lexemes_count, parametersIn_append, parametersIn_living]
  rfl

/-- Rows are created with a parameter for each of the inputs. -/
theorem parameters_insert : parameters (Statements.ofEntity e paginate softDelete).insert =
    List.range' 1 (inputColumns e).length := by
  rw [parameters, lexemes_insert, insertRead]
  split
  · rename_i hempty
    rw [List.isEmpty_iff.1 hempty]
    exact parametersIn_returningRead e
  · simp [parametersIn_parametersRead]

variable {e}

/-- Finding a row takes one parameter for each column of its key. -/
theorem parameters_find (h : (Statements.ofEntity e paginate softDelete).find = some sql) :
    parameters sql = List.range' 1 (keyColumns e).length := by
  obtain ⟨-, hfind⟩ := lexemes_find h
  rw [parameters, hfind, parametersIn_append, parametersIn_keyed, parametersIn_selectRead]
  rfl

/-- Assignments take their parameters in the order of the columns, and each its own. -/
theorem parametersIn_assignments (columns : List String) (first : Nat) :
    (columns.mapIdx fun i c => assignment c (first + i)).flatMap parametersIn =
      List.range' first columns.length := by
  have hnumbers : (columns.mapIdx fun i c => assignment c (first + i)).flatMap parametersIn =
      (columns.mapIdx fun i _ => id (first + i)).flatMap fun n => [n] := by
    rw [List.flatMap_def, List.flatMap_def, map_mapIdx, map_mapIdx]
    rfl
  rw [hnumbers, mapIdx_numbers id columns first, List.map_id]
  exact List.flatMap_pure_eq_map id _ |>.trans (List.map_id _)

/-- Rows are changed with a parameter for each of the inputs, and then for the key. -/
theorem parameters_update (h : (Statements.ofEntity e paginate softDelete).update = some sql) :
    parameters sql = List.range' 1 ((inputColumns e).length + (keyColumns e).length) := by
  obtain ⟨-, -, hupdate⟩ := lexemes_update h
  have hset : parametersIn (setRead e) = List.range' 1 (inputColumns e).length := by
    have hassignments := parametersIn_assignments (inputColumns e) 1
    simp only [Nat.add_comm 1] at hassignments
    rw [setRead, parametersIn_word, parametersIn_name, parametersIn_word,
      parametersIn_intercalate rfl, hassignments]
  rw [parameters, hupdate, parametersIn_append, parametersIn_append, parametersIn_keyed, hset,
    parametersIn_returningRead, List.append_nil, Nat.add_comm (inputColumns e).length 1,
    List.range'_append_1]

/-- Deleting a row takes one parameter for each column of its key. -/
theorem parameters_delete (h : (Statements.ofEntity e paginate softDelete).delete = some sql) :
    parameters sql = List.range' 1 (keyColumns e).length := by
  obtain ⟨-, hdelete⟩ := lexemes_delete h
  rw [parameters, hdelete, parametersIn_append, parametersIn_keyed]
  cases marker? e softDelete <;> rfl

end Parameters

end CrudGen.Sql
