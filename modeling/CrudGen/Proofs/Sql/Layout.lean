import CrudGen.Proofs.Sql.Columns

/-!
# Statements — tables laid out

What stands between two commas of a table, or between a comma and the parenthesis around them, is
read in the same way wherever it stands. A `TableText` takes a `CREATE TABLE` apart into such
elements, and every statement that is accepted can be taken apart so. What the elements declare makes
a draft if the names of the columns differ, and the draft holds all of it.

Main results:

* `parse_tableText` — what a table laid out in elements means depends on their entries only.
* `exists_tableText` — every accepted `CREATE TABLE` is laid out in elements.
* `foldlM_enter_empty_iff` — when entries make a draft, and which.
-/

namespace CrudGen.Sql.Parser

variable {dialect : Dialect} {table : String} {ts rest τ τ' : List Token} {e : Entry}
  {es : List Entry}

-- ---------------------------------------------------------------------------
-- Elements
-- ---------------------------------------------------------------------------

/-- Entries that stand one behind the other in `ts`, with no comma between them, before `rest`. -/
inductive Entries (dialect : Dialect) (table : String) :
    List Token → List Entry → List Token → Prop
  | nil (ts : List Token) : Entries dialect table ts [] ts
  | cons {e : Entry} {es : List Entry} {ts left rest : List Token}
      (hfirst : entry dialect table ts = .ok (e, left)) (hmore : Entries dialect table left es rest) :
      Entries dialect table ts (e :: es) rest

namespace Entries

/-- Entries leave an end of the tokens. -/
theorem suffix (h : Entries dialect table ts es rest) : rest <:+ ts := by
  have hedge : PlainEdge [.rparen] [.rparen] :=
    plainEdge_of_closes (List.cons_ne_nil _ _) (by simp [Closes]) (by simp [Closes])
  induction h with
  | nil => exact List.suffix_rfl
  | cons hfirst _ ih => exact ih.trans ((local_entry (Q := True) hedge dialect table).suffix hfirst)

/-- Entries before an edge are read in front of another one. -/
theorem moves (hedge : PlainEdge τ τ') {before left : List Token}
    (h : Entries dialect table (before ++ τ) es (left ++ τ)) :
    Entries dialect table (before ++ τ') es (left ++ τ') := by
  obtain ⟨ts, hts⟩ : ∃ ts, ts = before ++ τ := ⟨_, rfl⟩
  obtain ⟨rest, hrest⟩ : ∃ rest, rest = left ++ τ := ⟨_, rfl⟩
  rw [← hts, ← hrest] at h
  -- induction along the entries: each of them leaves an end that still ends in `τ`
  induction h generalizing before with
  | nil ts =>
    obtain rfl : before = left := List.append_cancel_right (hts.symm.trans hrest)
    exact .nil _
  | cons hfirst hmore ih =>
    subst hts hrest
    obtain ⟨mid, rfl, -⟩ := append_of_suffix hmore.suffix
    exact .cons ((local_entry hedge dialect table).moves before (fun _ => trivial) hfirst)
      (ih rfl rfl)

end Entries

/-- What stands between the commas of a table, with the entries that it has. -/
structure Element (dialect : Dialect) (table : String) where
  tokens : List Token
  entries : List Entry
  reads : Entries dialect table (tokens ++ [.rparen]) entries [.rparen]

/-- An element is read in the same way before every end of an element. -/
theorem Element.readsBefore (x : Element dialect table) (hτ : Closes τ) :
    Entries dialect table (x.tokens ++ τ) x.entries τ := by
  have hedge : PlainEdge [Token.rparen] τ :=
    plainEdge_of_closes (List.cons_ne_nil _ _) (.rparen []) hτ
  have hreads :
      Entries dialect table (x.tokens ++ [Token.rparen]) x.entries ([] ++ [Token.rparen]) :=
    x.reads
  exact hreads.moves hedge

/-- An element that is one entry is read as that entry. -/
theorem Element.entry_of_single {x : Element dialect table} (hx : x.entries = [e])
    (hτ : Closes τ) : entry dialect table (x.tokens ++ τ) = .ok (e, τ) := by
  have hreads := x.readsBefore hτ
  rw [hx] at hreads
  cases hreads with
  | cons hfirst hmore =>
    cases hmore
    exact hfirst

/-- Runs of tokens with a comma between them. -/
def commaSeparated (runs : List (List Token)) : List Token :=
  [Token.comma].intercalate runs

/-- Runs with a comma between the first two of them. -/
theorem commaSeparated_cons_cons (run next : List Token) (more : List (List Token)) :
    commaSeparated (run :: next :: more) = run ++ .comma :: commaSeparated (next :: more) := by
  simp [commaSeparated, List.intercalate]

/-- One run has no comma. -/
theorem commaSeparated_singleton (run : List Token) : commaSeparated [run] = run := by
  simp [commaSeparated, List.intercalate]

/-- A token of runs with commas between them is a comma or stands in one of them. -/
theorem mem_commaSeparated {t : Token} {runs : List (List Token)} (h : t ∈ commaSeparated runs) :
    t = .comma ∨ ∃ run ∈ runs, t ∈ run := by
  induction runs with
  | nil => cases h
  | cons run rest ih =>
    cases rest with
    | nil =>
      rw [commaSeparated_singleton] at h
      exact .inr ⟨run, List.mem_cons_self, h⟩
    | cons next more =>
      rw [commaSeparated_cons_cons] at h
      obtain h | rfl | h := by simpa only [List.mem_append, List.mem_cons] using h
      · exact .inr ⟨run, List.mem_cons_self, h⟩
      · exact .inl rfl
      · obtain hcomma | ⟨run', hrun', ht⟩ := ih h
        · exact .inl hcomma
        · exact .inr ⟨run', List.mem_cons_of_mem _ hrun', ht⟩

/-- Behind the first of several runs, an element ends. -/
theorem exists_behind (runs : List (List Token)) (tail : List Token) :
    ∃ τ, τ ≠ [] ∧ Closes τ ∧
      ∀ run, commaSeparated (run :: runs) ++ .rparen :: tail = run ++ τ := by
  cases runs with
  | nil =>
    refine ⟨.rparen :: tail, List.cons_ne_nil _ _, .rparen _, fun run => ?_⟩
    rw [commaSeparated_singleton]
  | cons next more =>
    refine ⟨.comma :: (commaSeparated (next :: more) ++ .rparen :: tail), List.cons_ne_nil _ _,
      .comma _, fun run => ?_⟩
    rw [commaSeparated_cons_cons, List.append_assoc, List.cons_append]

-- ---------------------------------------------------------------------------
-- Reading elements
-- ---------------------------------------------------------------------------

/-- Nothing that ends an element begins an entry. -/
theorem tableElement_of_entry {d : TableDraft} (h : entry dialect table ts = .ok (e, rest)) :
    tableElement dialect table d ts = (d.enter e).map fun d' => (.yield d', rest) := by
  -- no column begins with a bracket, a comma or the end
  have hcolumn {ts : List Token} (hname : nameOf? (front ts) = none) (h :
      columnEntry dialect table ts = .ok (e, rest)) : False := by
    obtain ⟨c, left, hc, -⟩ := bind_eq_ok h
    obtain ⟨n, left', hn, -⟩ := bind_eq_ok hc
    rw [(name_cases hn).1] at hname
    cases hname
  have h : entryFrom dialect table (front ts) ts = .ok (e, rest) := h
  have hrun : tableElement dialect table d ts =
      (entryFrom dialect table (front ts) >>= entering d) ts := by
    rw [tableElement_eq]
    cases ts with
    | nil => exact (hcolumn rfl h).elim
    | cons t more =>
      cases t with
      | rparen | comma | eof => exact (hcolumn rfl h).elim
      | _ => rfl
  rw [hrun, bind_of_ok h]
  change (liftM (d.enter e) >>= _ : Parser (ForInStep TableDraft)) rest = _
  cases d.enter e <;> rfl

/-- An entry reads something. -/
theorem length_entry (h : entry dialect table ts = .ok (e, rest)) : rest.length < ts.length := by
  have hle := eager_entry dialect table h
  cases ts with
  | nil => cases h
  | cons t more =>
    rw [List.length_cons] at hle ⊢
    omega

/-- The rounds of a table enter its entries. -/
theorem iterate_entries (h : Entries dialect table ts es rest) (d : TableDraft) :
    iterate (tableElement dialect table) d ts =
      es.foldlM TableDraft.enter d >>= fun d' => iterate (tableElement dialect table) d' rest := by
  induction h generalizing d with
  | nil => rfl
  | @cons e es ts left rest hfirst _ ih =>
    rw [iterate, tableElement_of_entry hfirst, List.foldlM_cons]
    cases d.enter e with
    | error e => rfl
    | ok d' =>
      simp only [Except.map, length_entry hfirst, if_true]
      exact ih d'

/-- Elements in a row are read as their entries, up to the parenthesis behind them. -/
theorem iterate_elements (xs : List (Element dialect table)) (tail : List Token) (d : TableDraft) :
    iterate (tableElement dialect table) d
        (commaSeparated (xs.map (·.tokens)) ++ .rparen :: tail) =
      (xs.flatMap (·.entries)).foldlM TableDraft.enter d >>= fun d' => .ok (d', tail) := by
  have hend (d : TableDraft) : iterate (tableElement dialect table) d (.rparen :: tail) =
      .ok (d, tail) := by
    rw [iterate]
    rfl
  have hcomma (d : TableDraft) (ts : List Token) : iterate (tableElement dialect table) d
      (.comma :: ts) = iterate (tableElement dialect table) d ts :=
    (Comes.round rfl (Nat.lt_succ_self _) (.refl d ts)).iterate_eq
  induction xs generalizing d with
  | nil => exact hend d
  | cons x rest ih =>
    -- an element is read up to the comma behind it, which the loop skips
    cases rest with
    | nil =>
      rw [List.map_singleton, commaSeparated_singleton, iterate_entries (x.readsBefore (.rparen _)),
        List.flatMap_singleton]
      exact congrArg _ (funext hend)
    | cons y more =>
      rw [List.map_cons, List.map_cons, commaSeparated_cons_cons, List.append_assoc,
        List.cons_append, iterate_entries (x.readsBefore (.comma _)), List.flatMap_cons,
        List.foldlM_append, bind_assoc]
      refine congrArg _ (funext fun d' => ?_)
      rw [hcomma, ← List.map_cons, ih]

/-- An element of a table is a parenthesis that ends the table, a comma, or an entry. -/
theorem tableElement_reads {d : TableDraft} {next : ForInStep TableDraft}
    (h : tableElement dialect table d ts = .ok (next, rest)) :
    next = .done d ∧ ts = .rparen :: rest ∨ next = .yield d ∧ ts = .comma :: rest ∨
      ∃ e, entry dialect table ts = .ok (e, rest) := by
  have hread : YieldsAt (tableElement dialect table d) ts fun next rest =>
      next = .done d ∧ ts = .rparen :: rest ∨ next = .yield d ∧ ts = .comma :: rest ∨
        ∃ e, entry dialect table ts = .ok (e, rest) := by
    rw [tableElement_eq]
    refine .look fun t ht => ?_
    -- an end and a comma are tokens by themselves, and the rest is an entry
    split
    · obtain ⟨more, rfl⟩ := cons_of_front ht Token.noConfusion
      refine .bind fun _ _ hmore => .pure (.inl ⟨rfl, ?_⟩)
      cases hmore
      rfl
    · exact Yields.throw.at (P := fun _ => False) fun _ _ => False.elim
    · obtain ⟨more, rfl⟩ := cons_of_front ht Token.noConfusion
      refine .bind fun _ _ hmore => .pure (.inr (.inl ⟨rfl, ?_⟩))
      cases hmore
      rfl
    · refine .bind fun e left he => .bind fun d' rest' hd' => .pure (.inr (.inr ⟨e, ?_⟩))
      rw [(lift_eq_ok hd').2, ← he, ← ht]
      rfl
  exact hread _ _ h

/-- Whatever is read as a table stands there in elements. -/
theorem exists_elements {d d' : TableDraft}
    (h : iterate (tableElement dialect table) d ts = .ok (d', rest)) :
    ∃ (x : Element dialect table) (xs : List (Element dialect table)),
      ts = commaSeparated ((x :: xs).map (·.tokens)) ++ .rparen :: rest := by
  let empty : Element dialect table := ⟨[], [], .nil _⟩
  -- induction along the table: what is read joins the first of the elements that follow
  induction d, ts using iterate.induct (tableElement dialect table) with
  | case1 d ts e he =>
    rw [iterate, he] at h
    cases h
  | case2 d ts d'' left hdone =>
    rw [iterate, hdone] at h
    cases h
    obtain ⟨-, rfl⟩ | ⟨⟨⟩, -⟩ | ⟨e, he⟩ := tableElement_reads hdone
    · exact ⟨empty, [], by simp [commaSeparated_singleton, empty]⟩
    · rw [tableElement_of_entry he] at hdone
      cases hd : d.enter e with
      | error e' =>
        rw [hd] at hdone
        cases hdone
      | ok d'' =>
        rw [hd] at hdone
        cases hdone
  | case3 d ts d'' left hyield hlt ih =>
    rw [iterate, hyield] at h
    simp only [hlt, if_true] at h
    obtain ⟨x, xs, rfl⟩ := ih h
    obtain ⟨⟨⟩, -⟩ | ⟨-, rfl⟩ | ⟨e, he⟩ := tableElement_reads hyield
    · exact ⟨empty, x :: xs, by simp [commaSeparated_cons_cons, empty]⟩
    · obtain ⟨τ, hne, hτ, hbehind⟩ := exists_behind (xs.map (·.tokens)) rest
      rw [List.map_cons, hbehind] at he
      have hedge := plainEdge_of_closes hne hτ (.rparen [])
      obtain ⟨taken, rfl⟩ := (local_entry (Q := True) hedge dialect table).suffix he
      rw [← List.append_assoc] at he
      have hmoved := (local_entry (Q := True) hedge dialect table).moves _ (fun _ => trivial) he
      refine ⟨⟨taken ++ x.tokens, e :: x.entries, .cons hmoved x.reads⟩, xs, ?_⟩
      rw [List.map_cons, hbehind, List.append_assoc]
  | case4 d ts d'' left hyield hlt =>
    obtain ⟨⟨⟩, -⟩ | ⟨-, rfl⟩ | ⟨e, he⟩ := tableElement_reads hyield
    · exact absurd (Nat.lt_succ_self _) hlt
    · exact absurd (length_entry he) hlt

-- ---------------------------------------------------------------------------
-- Openings
-- ---------------------------------------------------------------------------

/-- Tokens up to the parenthesis that opens a table. -/
def Opens (dialect : Dialect) (head : List Token) (table : String) (ifNotExists : Bool) : Prop :=
  ∀ body, statement dialect (head ++ .lparen :: body) = tableBody dialect table ifNotExists body

section

variable {t : Token} {σ σ' : List Token}

/-- A choice is made by the token in front. -/
theorem local_accept_front (p : Token → Bool) : Local (t :: σ) (t :: σ') True (accept p) :=
  .look (List.cons_ne_nil _ _) (fun _ => .ite
    (fun _ => .bind (.advance (List.cons_ne_nil _ _)) fun _ => .pure _) fun _ => .pure _) (.inr rfl)

/-- What is expected is the token in front, or it is an error. -/
theorem local_expect_front (token : Token) (what : String) :
    Local (t :: σ) (t :: σ') True (expect token what) :=
  .look (List.cons_ne_nil _ _) (fun _ => .ite (fun _ => .advance (List.cons_ne_nil _ _))
    fun _ => .refuse _) (.inr rfl)

/-- A name is the token in front. -/
theorem local_name_front (what : String) : Local (t :: σ) (t :: σ') True (name what) := by
  refine .look (List.cons_ne_nil _ _) (fun _ => ?_) (.inr rfl)
  split
  · exact .bind (.advance (List.cons_ne_nil _ _)) fun _ => .pure _
  · exact .refuse _

/-- A name with dots ends before what is behind the token. -/
theorem local_qualifiedName_front (what : String) :
    Local (t :: σ) (t :: σ') True (qualifiedName what) :=
  .bind (.bind (local_name_front what) fun _ => .iterate (fun _ => .bind (local_accept_front _)
    fun _ => .ite (fun _ => .bind (local_name_front what) fun _ => .pure _) fun _ => .pure _) _)
    fun _ => .pure _

/-- The words `IF EXISTS` end before it. -/
theorem local_skipIfExists_front : Local (t :: σ) (t :: σ') True skipIfExists :=
  .bind (local_accept_front _) fun _ => .ite (fun _ => .bind (.discard (local_accept_front _))
    fun _ => .bind (local_expect_front _ _) fun _ => .pure _) fun _ => .pure _

/-- Modifiers end before it. -/
theorem local_modifiers_front : Local (t :: σ) (t :: σ') True modifiers :=
  .iterate (fun _ => .bind (local_accept_front _) fun _ => .ite (fun _ => .pure _) fun _ => .pure _) ()

end

/-- Whatever is read as a definition opens a table, and goes on with it. -/
theorem exists_opening {definition : TableDefinition}
    (h : statement dialect ts = .ok (.createTable definition, rest)) :
    ∃ head table ifNotExists body, ts = head ++ .lparen :: body ∧
      Opens dialect head table ifNotExists ∧
      tableBody dialect table ifNotExists body = .ok (.createTable definition, rest) := by
  obtain ⟨more, left, rfl, hmodifiers, hcreate⟩ := createTable_of_statement h
  obtain ⟨ifNotExists, table, left', body, d, last, hif, htable, -, -⟩ :=
    elements_of_createTable hcreate
  have hlocal (body' : List Token) :
      Local (.lparen :: body) (.lparen :: body') True (qualifiedName "table name") ∧
        Local (.lparen :: body) (.lparen :: body') True skipIfExists ∧
          Local (.lparen :: body) (.lparen :: body') True modifiers :=
    ⟨local_qualifiedName_front _, local_skipIfExists_front, local_modifiers_front⟩
  -- each of the three readers leaves an end that still ends in the table
  obtain ⟨named, rfl⟩ := (hlocal body).1.suffix htable
  obtain ⟨words, rfl⟩ := (hlocal body).2.1.suffix hif
  obtain ⟨modified, rfl⟩ := (hlocal body).2.2.suffix hmodifiers
  have hopens : Opens dialect (.keyword .create :: (modified ++ .keyword .table ::
      (words ++ named))) table ifNotExists := by
    intro body'
    have htable' : qualifiedName "table name" (named ++ .lparen :: body') =
        .ok (table, [] ++ .lparen :: body') :=
      (hlocal body').1.moves named (fun _ => trivial) htable
    have hif' : skipIfExists (words ++ named ++ .lparen :: body') =
        .ok (ifNotExists, named ++ .lparen :: body') :=
      (hlocal body').2.1.moves _ (fun _ => trivial) (by simpa using hif)
    have hmodifiers' : modifiers (modified ++ .keyword .table :: (words ++ named) ++
        .lparen :: body') = .ok ((), .keyword .table :: (words ++ named) ++ .lparen :: body') :=
      (hlocal body').2.2.moves _ (fun _ => trivial) (by simpa using hmodifiers)
    change (modifiers >>= fun _ => current >>= _)
      (modified ++ .keyword .table :: (words ++ named) ++ .lparen :: body') = _
    rw [bind_of_ok hmodifiers']
    change createTable dialect (words ++ named ++ .lparen :: body') = _
    rw [createTable, bind_of_ok hif', bind_of_ok htable']
    rfl
  refine ⟨_, table, ifNotExists, body, by simp, hopens, ?_⟩
  rw [← h, ← hopens]
  simp

-- ---------------------------------------------------------------------------
-- Tables
-- ---------------------------------------------------------------------------

/-- A `CREATE TABLE`, taken apart into elements. -/
structure TableText (dialect : Dialect) where
  head : List Token
  table : String
  ifNotExists : Bool
  opens : Opens dialect head table ifNotExists
  elements : List (Element dialect table)
  tail : List Token

namespace TableText

/-- The statement with other elements. -/
def tokensWith (x : TableText dialect) (elements : List (List Token)) : List Token :=
  x.head ++ .lparen :: (commaSeparated elements ++ .rparen :: x.tail)

def tokens (x : TableText dialect) : List Token :=
  x.tokensWith (x.elements.map (·.tokens))

/-- What entries make up. -/
def definition (x : TableText dialect) (entries : List Entry) :
    Except SyntaxError TableDefinition := do
  (← entries.foldlM TableDraft.enter {}).definition x.table x.ifNotExists

end TableText

/-- **Elements.** What elements between the parentheses of a table mean depends on their entries
only. -/
theorem parse_tableText (x : TableText dialect) (elements : List (Element dialect x.table)) :
    Statement.parse dialect (x.tokensWith (elements.map (·.tokens))) =
      (x.definition (elements.flatMap (·.entries))).map .createTable := by
  have hbody : tableBody dialect x.table x.ifNotExists
      (commaSeparated (elements.map (·.tokens)) ++ Token.rparen :: x.tail) =
        (x.definition (elements.flatMap (·.entries))).map fun t => (.createTable t, x.tail) := by
    change Except.bind (iterate (tableElement dialect x.table) {} _) (fun r =>
      (do return .createTable (← r.1.definition x.table x.ifNotExists) : Parser Statement) r.2) = _
    rw [iterate_elements, TableText.definition]
    cases (elements.flatMap (·.entries)).foldlM TableDraft.enter {} with
    | error e => rfl
    | ok d =>
      change (liftM (d.definition x.table x.ifNotExists) >>= _ : Parser Statement) x.tail =
        (d.definition x.table x.ifNotExists).map _
      cases d.definition x.table x.ifNotExists <;> rfl
  change Except.map Prod.fst (statement dialect (x.head ++ Token.lparen :: _)) = _
  rw [x.opens, hbody]
  cases x.definition (elements.flatMap (·.entries)) <;> rfl

/-- **Layout.** Every statement that is read as a definition is laid out in elements. -/
theorem exists_tableText {definition : TableDefinition}
    (h : Statement.parse dialect ts = .ok (.createTable definition)) :
    ∃ x : TableText dialect, x.tokens = ts := by
  obtain ⟨⟨_, rest⟩, hrun, rfl⟩ := ok_of_map h
  obtain ⟨head, table, ifNotExists, body, rfl, hopens, hbody⟩ := exists_opening hrun
  obtain ⟨d, left, helements, -⟩ := bind_eq_ok hbody
  obtain ⟨e, es, rfl⟩ := exists_elements helements
  exact ⟨⟨head, table, ifNotExists, hopens, e :: es, left⟩, rfl⟩

-- ---------------------------------------------------------------------------
-- What entries declare
-- ---------------------------------------------------------------------------

/-- The names of the columns that entries declare. -/
def declaredNames (es : List Entry) : List String :=
  es.filterMap fun
    | .column c => some c.column.name
    | _ => none

/-- The columns that entries declare. -/
def columnsOf (es : List Entry) : List ColumnDefinition :=
  es.filterMap fun
    | .column c => some c
    | _ => none

/-- The constraints that entries declare. -/
def constraintsOf (es : List Entry) : List TableConstraint :=
  es.filterMap fun
    | .constraint k => some k
    | _ => none

/-- The declared names are those of the columns. -/
theorem declaredNames_eq (es : List Entry) :
    declaredNames es = (columnsOf es).map (·.column.name) := by
  rw [declaredNames, columnsOf, List.map_filterMap]
  refine congrArg (List.filterMap · es) (funext fun e => ?_)
  cases e <;> rfl

/-- A draft with all that entries declare. -/
def TableDraft.withEntries (d : TableDraft) (es : List Entry) : TableDraft where
  columns := d.columns ++ (columnsOf es).map (·.column)
  foreignKeys := d.foreignKeys ++ (columnsOf es).flatMap (·.foreignKey.toList)
  inlineEnums := d.inlineEnums ++ (columnsOf es).flatMap (·.inlineEnum.toList)
  constraints := d.constraints ++ constraintsOf es

/-- Entries are entered one after the other. -/
theorem TableDraft.withEntries_cons (d : TableDraft) (e : Entry) (es : List Entry) :
    d.withEntries (e :: es) = (d.withEntries [e]).withEntries es := by
  cases e <;> simp [withEntries, columnsOf, constraintsOf]

/-- A column is added if its name is new. -/
theorem TableDraft.addColumn_iff {d d' : TableDraft} {c : ColumnDefinition} :
    d.addColumn c = .ok d' ↔ (∀ n ∈ d.columns.map (·.name), Text.sameName n c.column.name = false) ∧
      d' = d.withEntries [.column c] := by
  have hadded : d.withEntries [.column c] = { d with
      columns := d.columns ++ [c.column]
      foreignKeys := d.foreignKeys ++ c.foreignKey.toList
      inlineEnums := d.inlineEnums ++ c.inlineEnum.toList } := by
    simp [withEntries, columnsOf, constraintsOf]
  rw [hadded, addColumn, List.forall_mem_map]
  -- the same test on both sides: is there a column of that name?
  split
  · rename_i hold
    obtain ⟨other, hother, hsame⟩ := List.any_eq_true.1 hold
    constructor
    · rintro ⟨⟩
    · rintro ⟨hnew, -⟩
      rw [hnew other hother] at hsame
      cases hsame
  · rename_i hnew
    rw [Bool.not_eq_true, List.any_eq_false] at hnew
    constructor
    · rintro ⟨⟩
      exact ⟨fun other hother => by simpa using hnew other hother, rfl⟩
    · rintro ⟨-, rfl⟩
      rfl

/-- Entries are entered one by one if the names of their columns differ. -/
theorem foldlM_enter_iff {d d' : TableDraft} (hd : DistinctNames (d.columns.map (·.name))) :
    es.foldlM TableDraft.enter d = .ok d' ↔
      DistinctNames (d.columns.map (·.name) ++ (columnsOf es).map (·.column.name)) ∧
        d' = d.withEntries es := by
  induction es generalizing d with
  | nil =>
    have hnone : d.withEntries [] = d := by
      simp [TableDraft.withEntries, columnsOf, constraintsOf]
    rw [hnone]
    constructor
    · rintro ⟨⟩
      exact ⟨by simpa [columnsOf] using hd, rfl⟩
    · rintro ⟨-, rfl⟩
      rfl
  | cons e rest ih =>
    rw [List.foldlM_cons, TableDraft.withEntries_cons]
    -- constraints and skipped elements add no name, so the hypothesis serves as it stands
    have hother (henter : d.enter e = .ok (d.withEntries [e]))
        (hcolumns : columnsOf (e :: rest) = columnsOf rest)
        (hnames : (d.withEntries [e]).columns = d.columns) :
        (d.enter e >>= fun d => rest.foldlM TableDraft.enter d) = .ok d' ↔
          DistinctNames (d.columns.map (·.name) ++ (columnsOf (e :: rest)).map (·.column.name)) ∧
            d' = (d.withEntries [e]).withEntries rest := by
      rw [henter, hcolumns, ← hnames]
      exact ih (hnames ▸ hd)
    cases e with
    | column c =>
      have hnames : (d.withEntries [.column c]).columns.map (·.name) =
          d.columns.map (·.name) ++ [c.column.name] := by
        simp [TableDraft.withEntries, columnsOf]
      have hcolumns : columnsOf (.column c :: rest) = c :: columnsOf rest := rfl
      rw [hcolumns, List.map_cons, List.append_cons, ← hnames]
      constructor
      · intro h
        obtain ⟨mid, hfirst, hrest⟩ := ok_of_bind h
        obtain ⟨hnew, rfl⟩ := TableDraft.addColumn_iff.1 hfirst
        exact (ih (hnames ▸ hd.concat hnew)).1 hrest
      -- a column is taken if its name is new, which the names of all of them say
      · intro h
        have hdistinct := h.1
        rw [hnames, ← List.append_cons] at hdistinct
        have hfirst : d.enter (.column c) = .ok (d.withEntries [.column c]) :=
          TableDraft.addColumn_iff.2 ⟨fun n hn =>
            (List.pairwise_append.1 hdistinct).2.2 n hn _ List.mem_cons_self, rfl⟩
        have hnew : DistinctNames ((d.withEntries [.column c]).columns.map (·.name)) :=
          (List.pairwise_append.1 h.1).1
        rw [hfirst]
        exact (ih hnew).2 h
    | constraint k =>
      exact hother (by simp [TableDraft.enter, TableDraft.addConstraint, TableDraft.withEntries,
        columnsOf, constraintsOf]) rfl (by simp [TableDraft.withEntries, columnsOf])
    | skipped =>
      exact hother (by simp [TableDraft.enter, TableDraft.withEntries, columnsOf, constraintsOf]) rfl
        (by simp [TableDraft.withEntries, columnsOf])

/-- Entries make a draft if the names of their columns differ, and it holds all of them. -/
theorem foldlM_enter_empty_iff {d : TableDraft} : es.foldlM TableDraft.enter {} = .ok d ↔
    DistinctNames ((columnsOf es).map (·.column.name)) ∧ d = ({} : TableDraft).withEntries es := by
  have hnone : DistinctNames (({} : TableDraft).columns.map (·.name)) := .nil
  exact foldlM_enter_iff hnone

/-- The columns of a table are those of its elements. -/
theorem TableText.columnNames (x : TableText dialect) {d : TableDefinition}
    (h : x.definition (x.elements.flatMap (·.entries)) = .ok d) :
    d.table.columnNames = x.elements.flatMap fun e => declaredNames e.entries := by
  obtain ⟨draft, hdraft, hmade⟩ := ok_of_bind h
  have hnames := congrArg (List.map (·.1)) (TableDraft.definition_keeps hmade).2.1
  rw [List.map_map, List.map_map] at hnames
  obtain ⟨-, rfl⟩ := foldlM_enter_empty_iff.1 hdraft
  have hall : ((TableDraft.withEntries {} (x.elements.flatMap (·.entries))).columns.map (·.name)) =
      declaredNames (x.elements.flatMap (·.entries)) := by
    rw [declaredNames_eq, TableDraft.withEntries, List.nil_append, List.map_map]
    rfl
  refine hnames.trans (hall.trans ?_)
  rw [declaredNames, List.filterMap_flatMap]
  rfl

end CrudGen.Sql.Parser
