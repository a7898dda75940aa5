import CrudGen.Proofs.Sql.BuiltIn
import CrudGen.Proofs.Sql.Composition
import CrudGen.Proofs.Sql.Parts

/-!
# Scripts — quoted names

Quoting a name keeps it from being a keyword, and nothing else: the words that are no keywords are
looked for among quoted names too. A table of quoted columns therefore loses those columns whose
names begin an element that says nothing about columns.

Main results:

* `tokensOf_tableScript` — the tokens of a `CREATE TABLE` with quoted names.
* `parse_tableScript` — what they are read as.
* `ofScript_quoted` — what is read of such a script.
-/

namespace CrudGen

open Sql Sql.Parser

-- ---------------------------------------------------------------------------
-- Scripts
-- ---------------------------------------------------------------------------

/-- The marks that names are quoted with. -/
inductive QuoteMark where
  | double | backtick
  deriving DecidableEq, Repr, Inhabited

def QuoteMark.char : QuoteMark → Char
  | .double => '"'
  | .backtick => '`'

/-- A name and the mark that it is quoted with. -/
structure QuotedName where
  mark : QuoteMark
  name : String

/-- The name between its marks, with every mark inside doubled. -/
def QuotedName.text (x : QuotedName) : String :=
  Text.enclosed x.mark.char x.name

/-- A column with a quoted name and a built-in type. -/
structure QuotedColumn where
  quoted : QuotedName
  type : TypeSpelling

namespace QuotedColumn

def name (x : QuotedColumn) : String :=
  x.quoted.name

def text (x : QuotedColumn) : String :=
  x.quoted.text ++ " " ++ x.type.text

def tokens (x : QuotedColumn) : List Token :=
  .ident x.name :: x.type.words.map Lexer.ofWord

/-- Whether the name of a column is one of the words that begin elements without columns. -/
def isSkipped (x : QuotedColumn) : Bool :=
  isOneOf skippedElements (.ident x.name)

end QuotedColumn

/-- A script that creates a table. -/
def tableScript (table : QuotedName) (columns : List QuotedColumn) : String :=
  "CREATE TABLE " ++ table.text ++ " (" ++ ", ".intercalate (columns.map (·.text)) ++ ")"

/-- A quoted name is an identifier, whatever it is. -/
theorem QuotedName.tokensOf_text (x : QuotedName) {rest : List Char}
    (hrest : rest.head? ≠ some x.mark.char) :
    tokensOf (x.text.toList ++ rest) = .ident x.name :: tokensOf rest := by
  refine tokensOf_enclosed ?_ x.name hrest
  cases x.mark
  · exact .inl rfl
  · exact .inr rfl

/-- A blank ends a quoted name, whatever its marks are. -/
theorem QuotedName.blank_ne_mark (x : QuotedName) (rest : List Char) :
    (' ' :: rest).head? ≠ some x.mark.char := by
  cases h : x.mark <;> simp [QuoteMark.char]

/-- A column is read as its name and its type, in front of what does not go on with the type. -/
theorem QuotedColumn.tokensOf_text (x : QuotedColumn) {rest : List Char}
    (hrest : ∀ d ∈ rest.head?, Lexer.isWordChar d = false) :
    tokensOf (x.text.toList ++ rest) = x.tokens ++ tokensOf rest := by
  have htext : x.text.toList ++ rest = x.quoted.text.toList ++ ' ' :: (x.type.text.toList ++ rest) := by
    simp [text]
  rw [htext, x.quoted.tokensOf_text (x.quoted.blank_ne_mark _), tokensOf_blank,
    x.type.tokensOf_text hrest]
  rfl

/-- Columns with commas between them are read as their tokens with commas between them. -/
theorem tokensOf_columns (columns : List QuotedColumn) :
    tokensOf ((", ".intercalate (columns.map (·.text))).toList ++ [')']) =
      commaSeparated (columns.map (·.tokens)) ++ [Token.rparen, Token.eof] := by
  have hend : tokensOf [')'] = [Token.rparen, Token.eof] := by
    rw [tokensOf_rparen, tokensOf_nil]
  have hparen : ∀ d ∈ [')'].head?, Lexer.isWordChar d = false := by
    rintro _ ⟨⟩
    decide +kernel
  induction columns with
  | nil => exact hend
  | cons x rest ih =>
    -- induction on the columns, with one case for the last of them
    cases rest with
    | nil =>
      rw [List.map_singleton, List.map_singleton, String.intercalate_singleton,
        commaSeparated_singleton, x.tokensOf_text hparen, hend]
    | cons y more =>
      have htext : (", ".intercalate ((x :: y :: more).map (·.text))).toList ++ [')'] =
          x.text.toList ++ ',' :: ' ' ::
            ((", ".intercalate ((y :: more).map (·.text))).toList ++ [')']) := by
        rw [List.map_cons, List.map_cons, String.intercalate_cons_cons]
        simp
      have hcomma : ∀ d ∈ (',' :: ' ' ::
          ((", ".intercalate ((y :: more).map (·.text))).toList ++ [')'])).head?,
            Lexer.isWordChar d = false := by
        rintro _ ⟨⟩
        decide +kernel
      rw [htext, x.tokensOf_text hcomma, tokensOf_comma, tokensOf_blank, ih]
      simp only [List.map_cons, commaSeparated_cons_cons, List.append_assoc, List.cons_append]

/-- The tokens up to the parenthesis that opens a table. -/
def tableHead (table : String) : List Token :=
  [.keyword .create, .keyword .table, .ident table]

/-- The script of a table is read as its head and its columns in parentheses. -/
theorem tokensOf_tableScript (table : QuotedName) (columns : List QuotedColumn) :
    tokensOf (tableScript table columns).toList =
      (tableHead table.name ++
        Token.lparen :: (commaSeparated (columns.map (·.tokens)) ++ [Token.rparen])) ++
        [Token.eof] := by
  -- a word of the head is read up to the blank behind it
  have hword {c : Char} {tail : List Char} (k : Keyword) (hc : startsWord c = true)
      (htail : tail.all Lexer.isWordChar = true)
      (hk : Lexer.ofWord (String.ofList (c :: tail)) = Token.keyword k) (rest : List Char) :
      tokensOf (c :: (tail ++ ' ' :: rest)) = Token.keyword k :: tokensOf rest := by
    have hblank : ∀ d ∈ (' ' :: rest).head?, Lexer.isWordChar d = false := by
      rintro _ ⟨⟩
      decide +kernel
    rw [tokensOf_word hc (List.all_eq_true.1 htail) hblank, hk, tokensOf_blank]
  let body := (", ".intercalate (columns.map (·.text))).toList ++ [')']
  have htext : (tableScript table columns).toList = 'C' :: (['R', 'E', 'A', 'T', 'E'] ++ ' ' ::
      'T' :: (['A', 'B', 'L', 'E'] ++ ' ' :: (table.text.toList ++ ' ' :: '(' :: body))) := by
    have hparts (a b c d e : String) : (a ++ b ++ c ++ d ++ e).toList =
        a.toList ++ (b.toList ++ (c.toList ++ (d.toList ++ e.toList))) := by
      simp only [String.toList_append, List.append_assoc]
    exact hparts _ _ _ _ _
  rw [htext, hword .create (by decide +kernel) (by decide +kernel) (by decide +kernel),
    hword .table (by decide +kernel) (by decide +kernel) (by decide +kernel),
    table.tokensOf_text (table.blank_ne_mark _), tokensOf_blank, tokensOf_lparen, tokensOf_columns]
  rw [tableHead]
  simp only [List.append_assoc, List.cons_append, List.nil_append]

-- ---------------------------------------------------------------------------
-- Elements
-- ---------------------------------------------------------------------------

/-- The head of a table opens it under its name. -/
theorem opens_tableHead (dialect : Dialect) (table : String) :
    Opens dialect (tableHead table) table false := by
  intro body
  have hmodifiers : modifiers (.keyword .table :: .ident table :: .lparen :: body) =
      .ok ((), .keyword .table :: .ident table :: .lparen :: body) := by
    rw [modifiers, iterate]
    rfl
  have hif : skipIfExists (.ident table :: .lparen :: body) =
      .ok (false, .ident table :: .lparen :: body) := skipIfExists_none Token.noConfusion
  have hname : qualifiedName "table name" (.ident table :: .lparen :: body) =
      .ok (table, .lparen :: body) := qualifiedName_dotted (.last rfl) Token.noConfusion _
  change (modifiers >>= fun _ => current >>= _) (.keyword .table :: .ident table :: .lparen :: body) = _
  rw [bind_of_ok hmodifiers]
  change createTable dialect (.ident table :: .lparen :: body) = _
  rw [createTable, bind_of_ok hif, bind_of_ok hname]
  rfl

/-- Words are dropped with their element. -/
theorem fromElementEnd_words {ts τ : List Token}
    (h : ∀ t ∈ ts, ∃ word, t = .ident word ∨ t = .serial word) (hτ : Closes τ) :
    fromElementEnd 0 (ts ++ τ) = τ := by
  induction ts with
  | nil => exact fromElementEnd_of_closes hτ
  | cons t rest ih =>
    have hrest := ih fun u hu => h u (List.mem_cons_of_mem _ hu)
    obtain ⟨word, rfl | rfl⟩ := h t List.mem_cons_self
    · exact hrest
    · exact hrest

namespace QuotedColumn

variable (dialect : Dialect) (table : String) (x : QuotedColumn)

/-- The column that is declared. -/
def definition : ColumnDefinition :=
  columnOf dialect table x.name x.type.written []

/-- What a column is read as. -/
def entry : Entry :=
  if x.isSkipped then .skipped else .column (x.definition dialect table)

/-- The tokens of a column are words. -/
theorem words_tokens : ∀ t ∈ x.tokens, ∃ word, t = .ident word ∨ t = .serial word := by
  intro t ht
  obtain rfl | ht := List.mem_cons.1 ht
  · exact ⟨x.name, .inl rfl⟩
  · obtain ⟨word, hword, rfl⟩ := List.mem_map.1 ht
    rw [x.type.ofWord_eq hword]
    split
    · exact ⟨_, .inr rfl⟩
    · exact ⟨_, .inl rfl⟩

/-- The entry of a quoted column is the column, unless its name is a word that begins something
else. -/
theorem entry_tokens :
    Parser.entry dialect table (x.tokens ++ [Token.rparen]) =
      .ok (x.entry dialect table, [Token.rparen]) := by
  have hskip : skipElement (x.tokens ++ [Token.rparen]) = .ok ((), [Token.rparen]) := by
    change Except.ok ((), fromElementEnd 0 (x.tokens ++ [Token.rparen])) = _
    rw [fromElementEnd_words x.words_tokens (.rparen [])]
  have hcolumn : column dialect table (x.tokens ++ [Token.rparen]) =
      .ok (x.definition dialect table, [Token.rparen]) :=
    column_of_clauses rfl (x.type.writtenType x.name) (EndsClause.element (.rparen [])).stopsType
      (.nil _) (.rparen [])
  change wordOrColumn dialect table (Token.ident x.name) (x.tokens ++ [Token.rparen]) = _
  rw [entry, wordOrColumn, isSkipped]
  split
  · rw [bind_of_ok hskip]
    rfl
  · rw [columnEntry, bind_of_ok hcolumn]
    rfl

/-- A column as an element of its table. -/
def element : Element dialect table :=
  ⟨x.tokens, [x.entry dialect table], .cons (x.entry_tokens dialect table) (.nil _)⟩

end QuotedColumn

-- ---------------------------------------------------------------------------
-- Tables
-- ---------------------------------------------------------------------------

/-- The columns whose names begin no element of another kind. -/
def keptColumns (columns : List QuotedColumn) : List QuotedColumn :=
  columns.filter fun x => !x.isSkipped

/-- The columns of a table are those whose names begin nothing else. -/
theorem columnsOf_columns (dialect : Dialect) (table : String) (columns : List QuotedColumn) :
    columnsOf (columns.map (·.entry dialect table)) =
      (keptColumns columns).map (·.definition dialect table) := by
  induction columns with
  | nil => rfl
  | cons x rest ih =>
    rw [List.map_cons, QuotedColumn.entry]
    cases hskipped : x.isSkipped with
    | true =>
      have hkept : keptColumns (x :: rest) = keptColumns rest :=
        List.filter_cons_of_neg (by simp [hskipped])
      rw [hkept, ← ih]
      rfl
    | false =>
      have hkept : keptColumns (x :: rest) = x :: keptColumns rest :=
        List.filter_cons_of_pos (by simp [hskipped])
      rw [hkept, List.map_cons, ← ih]
      rfl

/-- Columns with distinct names are entered one by one. -/
theorem foldlM_enter_columns (dialect : Dialect) (table : String) {columns : List QuotedColumn}
    (hdistinct : DistinctNames (columns.map (·.name))) :
    (columns.map (·.entry dialect table)).foldlM TableDraft.enter {} = .ok {
      columns := (keptColumns columns).map fun x => (x.definition dialect table).column } := by
  have hconstraints : constraintsOf (columns.map (·.entry dialect table)) = [] := by
    rw [constraintsOf, List.filterMap_eq_nil_iff]
    intro e he
    obtain ⟨x, -, rfl⟩ := List.mem_map.1 he
    cases hskipped : x.isSkipped <;> rw [QuotedColumn.entry, hskipped] <;> rfl
  have henums (x : QuotedColumn) : (x.definition dialect table).inlineEnum = none :=
    x.type.inlineEnum?_written table x.name
  have hfks (x : QuotedColumn) : (x.definition dialect table).foreignKey = none := rfl
  refine foldlM_enter_empty_iff.2 ⟨?_, ?_⟩
  · rw [columnsOf_columns, List.map_map]
    exact List.Pairwise.sublist (List.filter_sublist.map _) hdistinct
  · simp [TableDraft.withEntries, columnsOf_columns, hconstraints, henums, hfks, List.flatMap_map]

/-- A table with columns and no constraints is defined by them. -/
theorem definition_columns {columns : List Column} (hsome : columns ≠ [])
    (hkey : ∀ c ∈ columns, c.primaryKey = false) (table : String) (ifNotExists : Bool) :
    TableDraft.definition { columns } table ifNotExists =
      .ok { table := { name := table, columns }, foreignKeys := [], inlineEnums := [], ifNotExists } := by
  have hnone : keysOf columns [] = [] := by
    rw [keysOf, List.filterMap_nil, List.append_nil, List.map_eq_nil_iff, List.filter_eq_nil_iff]
    intro c hc
    rw [hkey c hc]
    exact Bool.false_ne_true
  have htable : tableOf table columns [] = { name := table, columns } := by
    rw [tableOf, hnone]
    rfl
  refine (definition_iff (List.forall_mem_nil _)).2 ⟨hsome, [], .nil, by simp [hnone], ?_⟩
  rw [htable, markPrimaryKey_of_none rfl]
  rfl

/-- The table that is made of columns. -/
def tableOfColumns (dialect : Dialect) (table : String) (columns : List QuotedColumn) : Table where
  name := table
  columns := columns.map fun x => (x.definition dialect table).column

/-- A script of quoted columns is a table with those that are kept, or an error if none is. -/
theorem parse_tableScript (dialect : Dialect) (table : String) {columns : List QuotedColumn}
    (hdistinct : DistinctNames (columns.map (·.name))) :
    Statement.parse dialect
        (tableHead table ++
          Token.lparen :: (commaSeparated (columns.map (·.tokens)) ++ [Token.rparen])) =
      if (keptColumns columns).isEmpty then .error (.noColumns table)
      else .ok (.createTable {
        table := tableOfColumns dialect table (keptColumns columns)
        foreignKeys := [], inlineEnums := [], ifNotExists := false }) := by
  have htokens : (columns.map (·.element dialect table)).map (·.tokens) = columns.map (·.tokens) := by
    rw [List.map_map]
    rfl
  have hentries : (columns.map (·.element dialect table)).flatMap (·.entries) =
      columns.map (·.entry dialect table) := by
    rw [List.flatMap_map]
    exact List.flatMap_pure_eq_map _ _
  -- the head opens the table, and its elements are the columns
  let x : TableText dialect := ⟨_, table, false, opens_tableHead dialect table, [], []⟩
  have hparse : Statement.parse dialect (x.tokensWith _) =
      Except.map _ (x.definition _) := parse_tableText x (columns.map (·.element dialect table))
  rw [htokens, hentries, TableText.definition] at hparse
  refine hparse.trans ?_
  rw [foldlM_enter_columns dialect table hdistinct]
  change Except.map _ (TableDraft.definition { columns := [] ++ _ } table false) = _
  split
  -- without a column that is kept, there is no table
  · rename_i hnone
    rw [List.isEmpty_iff] at hnone
    rw [hnone]
    rfl
  · rename_i hsome
    rw [List.nil_append, definition_columns]
    · rfl
    · simpa using hsome
    · intro c hc
      obtain ⟨x, -, rfl⟩ := List.mem_map.1 hc
      rfl

-- ---------------------------------------------------------------------------
-- Catalogs
-- ---------------------------------------------------------------------------

/-- Without enumerations, no type becomes one. -/
theorem SqlType.withEnums_nil (t : SqlType) : t.withEnums [] = t := by
  induction t with
  | array element ih => rw [withEnums, ih]
  | _ => rfl

/-- A table without references is all there is in the catalog of its script. -/
theorem ofStatements_table {dialect : Dialect} {o : Origin} {tokens : List Token} {t : Table}
    {ifNotExists : Bool} (h : Statement.parse dialect tokens =
      .ok (.createTable { table := t, foreignKeys := [], inlineEnums := [], ifNotExists })) :
    Extraction.ofStatements dialect [(o, tokens)] = { catalog := { tables := [t] } } := by
  have hadd : ({} : Draft).addTokens dialect o tokens = { catalog := { tables := [t] } } := by
    rw [Draft.addTokens, h]
    rfl
  have hcolumns : (t.columns.map fun c => { c with dataType := c.dataType.withEnums [] }) =
      t.columns := by
    simp only [SqlType.withEnums_nil, List.map_id']
  change Draft.finish (({} : Draft).addTokens dialect o tokens) = _
  rw [hadd]
  change Extraction.mk { tables := [{ t with columns := t.columns.map fun c =>
    { c with dataType := c.dataType.withEnums [] } }] } [] [] = _
  rw [hcolumns]

/-- A statement that is not read is the only error of a script of it. -/
theorem ofStatements_error {dialect : Dialect} {o : Origin} {tokens : List Token} {e : SyntaxError}
    (h : Statement.parse dialect tokens = .error e) :
    Extraction.ofStatements dialect [(o, tokens)] = { errors := [o.error e.message] } := by
  have hadd : ({} : Draft).addTokens dialect o tokens = { errors := [o.error e.message] } := by
    rw [Draft.addTokens, h]
    rfl
  change Draft.finish (({} : Draft).addTokens dialect o tokens) = _
  rw [hadd]
  rfl

/-- The tokens of a script are the one statement of it. -/
theorem originsOf_tableScript (table : QuotedName) (columns : List QuotedColumn) :
    ∃ o, originsOf (tableScript table columns) = [(o, tableHead table.name ++
      Token.lparen :: (commaSeparated (columns.map (·.tokens)) ++ [Token.rparen]))] := by
  have hnone : Token.semicolon ∉ tableHead table.name ++
      Token.lparen :: (commaSeparated (columns.map (·.tokens)) ++ [Token.rparen]) := by
    have hcolumns : Token.semicolon ∉ commaSeparated (columns.map (·.tokens)) := by
      intro hmem
      obtain hcomma | ⟨_, hrun, ht⟩ := mem_commaSeparated hmem
      · cases hcomma
      · obtain ⟨x, -, rfl⟩ := List.mem_map.1 hrun
        obtain ⟨word, hword | hword⟩ := x.words_tokens _ ht
        · cases hword
        · cases hword
    simpa [tableHead] using hcolumns
  obtain ⟨line, hline⟩ := statementsOf_single (tokensOf_tableScript table columns) hnone
    (List.append_ne_nil_of_left_ne_nil (List.cons_ne_nil _ _) _)
  exact ⟨⟨1, line⟩, by rw [originsOf_eq, hline]; rfl⟩

/-- What is made of a script with one table of quoted columns. -/
theorem ofScript_tableScript (dialect : Dialect) (table : QuotedName) (columns : List QuotedColumn)
    (hdistinct : DistinctNames (columns.map (·.name))) :
    ∃ o : Origin, Extraction.ofScript (tableScript table columns) dialect =
      if (keptColumns columns).isEmpty then
        { errors := [o.error (SyntaxError.noColumns table.name).message] }
      else { catalog := { tables := [tableOfColumns (dialect.resolve (tableScript table columns))
        table.name (keptColumns columns)] } } := by
  obtain ⟨o, horigin⟩ := originsOf_tableScript table columns
  have hparse := parse_tableScript (dialect.resolve (tableScript table columns)) table.name hdistinct
  refine ⟨o, ?_⟩
  rw [Extraction.ofScript, horigin]
  split
  · rename_i hnone
    rw [if_pos hnone] at hparse
    exact ofStatements_error hparse
  · rename_i hsome
    rw [if_neg hsome] at hparse
    exact ofStatements_table hparse

/-- **Quoted names.** A table of columns with distinct quoted names has the columns in their order,
but for those whose names begin an element of another kind. If no column is left, the statement is
refused. -/
theorem ofScript_quoted (dialect : Dialect) (table : QuotedName) (columns : List QuotedColumn)
    (hdistinct : DistinctNames (columns.map (·.name))) :
    let script := tableScript table columns
    let x := Extraction.ofScript script dialect
    x.unresolved = [] ∧
      if (keptColumns columns).isEmpty then
        x.catalog = {} ∧ x.errors.map (·.reason) = [(SyntaxError.noColumns table.name).message]
      else
        x.errors = [] ∧ ∃ t, x.catalog = { tables := [t] } ∧ t.name = table.name ∧
          t.columns.map (fun c => (c.name, c.dataType)) = (keptColumns columns).map fun x =>
            (x.name, (TypeMeaning.ofName (" ".intercalate x.type.name) []
              (dialect.resolve script)).dataType) := by
  intro script x
  obtain ⟨o, hx⟩ : ∃ o : Origin, x = _ := ofScript_tableScript dialect table columns hdistinct
  rw [hx]
  -- without a column that is kept, the table is refused
  split
  · exact ⟨rfl, rfl, rfl⟩
  · refine ⟨rfl, rfl, _, rfl, rfl, ?_⟩
    rw [tableOfColumns, List.map_map]
    refine List.map_congr_left fun x _ => Prod.ext rfl ?_
    exact congrArg TypeMeaning.dataType (x.type.meaning_written _ _ _)

/-- A column of whole numbers. -/
def intColumn (mark : QuoteMark) (name : String) : QuotedColumn :=
  ⟨⟨mark, name⟩, ⟨["INT"], by decide +kernel⟩⟩

theorem ofScript_quoted_of_keywords :
    DistinctNames ["if", "key"] ∧
      (Extraction.ofScript (tableScript ⟨.double, "table"⟩
        [intColumn .backtick "if", intColumn .double "key"]) .generic).errors = [] := by
  have hdistinct : DistinctNames ["if", "key"] := distinctNames_iff.2 (by decide +kernel)
  have hread := (ofScript_quoted .generic ⟨.double, "table"⟩
    [intColumn .backtick "if", intColumn .double "key"] hdistinct).2
  rw [if_neg (by decide +kernel)] at hread
  exact ⟨hdistinct, hread.1⟩

/-- A column that is named like an element of another kind gets lost. -/
theorem columnNames_quoted_like :
    (Extraction.ofScript (tableScript ⟨.double, "t"⟩
      [intColumn .double "a", intColumn .double "like"]) .generic).catalog.tables.map
        (·.columnNames) = [["a"]] := by
  have hdistinct : DistinctNames ["a", "like"] := distinctNames_iff.2 (by decide +kernel)
  have hlike : isOneOf skippedElements (.ident "like") = true :=
    List.any_eq_true.2 ⟨"LIKE", by simp [skippedElements],
      Text.sameName_of_map_eq (by decide +kernel)⟩
  have hkept : keptColumns [intColumn .double "a", intColumn .double "like"] =
      [intColumn .double "a"] := by
    have ha : (intColumn .double "a").isSkipped = false := by decide +kernel
    rw [keptColumns, List.filter_cons_of_pos (by simp [ha]),
      List.filter_cons_of_neg (by simp [QuotedColumn.isSkipped, QuotedColumn.name, intColumn, hlike]),
      List.filter_nil]
  obtain ⟨o, hx⟩ := ofScript_tableScript .generic ⟨.double, "t"⟩
    [intColumn .double "a", intColumn .double "like"] hdistinct
  rw [hx, hkept]
  rfl

end CrudGen
