import CrudGen.Proofs.Sql.Defaults
import CrudGen.Proofs.Sql.Interleaved

/-!
# Scripts — tables that are created and altered

What a `CREATE TABLE` says about its table may be left to an `ALTER TABLE` behind it: constraints,
the last columns, and the default of a column (`SplitsOff`). Each stands there as the tokens that it
was among the elements of the table. Single moves are shown to complete the table, and moves one
after the other complete it as their actions in a row do.

Main results:

* `Completes.trans` — actions that complete a part of a part complete a part.
* `SplitsOff.completes` — what stays and what is split off make up the table.
* `inline_or_altered` — a script means the same with both statements in place of one.
* `index_misread_when_created` — an index that only an `ALTER TABLE` reads.
-/

namespace CrudGen

open Text (sameName)
open Sql (AlterAction ColumnDefinition Dialect PendingForeignKey Statement TableConstraint
  TableDefinition Token)

-- ---------------------------------------------------------------------------
-- Actions in a row
-- ---------------------------------------------------------------------------

theorem Table.Rearranged.trans {t t' t'' : Table} (h : t.Rearranged t') (h' : t'.Rearranged t'') :
    t.Rearranged t'' where
  name := h.name.trans h'.name
  columns := h.columns.trans h'.columns
  primaryKey := h.primaryKey.trans h'.primaryKey
  uniques := h.uniques.trans h'.uniques
  indexes := h.indexes.trans h'.indexes
  foreignKeys := h.foreignKeys.trans h'.foreignKeys

namespace Staged

/-- A staged table with more references before its own. -/
def withReferences (fks : List PendingForeignKey) (s : Staged) : Staged :=
  { s with foreignKeys := fks ++ s.foreignKeys }

/-- No action looks at the references that are staged. -/
theorem act_withReferences (fks : List PendingForeignKey) (s : Staged) (a : AlterAction) :
    (s.withReferences fks).act a = (s.act a).map (withReferences fks) := by
  -- no action looks at the references that wait, they are only added to
  cases a with
  | addColumn d =>
    cases hold : s.table.hasColumn d.column.name with
    | true =>
      simp only [act, withReferences, hold]
      rfl
    | false => simp [act, withReferences, hold, Except.map, pure, Except.pure]
  | setDefault column expression =>
    cases hcolumn : s.table.hasColumn column <;>
      simp only [act, withReferences, hcolumn] <;> rfl
  | addForeignKey fk | addUnique fk | addIndex fk =>
    simp only [act, withReferences]
    cases s.table.requireColumns fk.columns _ with
    | error e => rfl
    | ok columns => simp [Except.map, bind, Except.bind, pure, Except.pure, withReferences]
  | addPrimaryKey names =>
    simp only [act, withReferences]
    cases s.table.requireColumns names _ with
    | error e => rfl
    | ok columns =>
      cases hother : (!s.table.primaryKey.isEmpty && s.table.primaryKey != columns) <;>
        simp only [bind, Except.bind, hother] <;> rfl

theorem foldlM_act_withReferences (fks : List PendingForeignKey) (s : Staged)
    (actions : List AlterAction) : actions.foldlM act (s.withReferences fks) =
      (actions.foldlM act s).map (withReferences fks) := by
  induction actions generalizing s with
  | nil => rfl
  | cons a rest ih =>
    rw [List.foldlM_cons, List.foldlM_cons, act_withReferences]
    cases s.act a with
    | error e => rfl
    | ok s' => exact ih s'

end Staged

/-- Actions that complete a part of a part complete a part. -/
theorem Sql.TableDefinition.Completes.trans {least part whole : TableDefinition}
    {actions actions' : List AlterAction} (h : least.Completes actions part)
    (h' : part.Completes actions' whole) : least.Completes (actions ++ actions') whole := by
  obtain ⟨s, hs, hnone, hrearranged, hfks⟩ := h.staged
  obtain ⟨s', hs', hnone', hrearranged', hfks'⟩ := h'.staged
  -- the later actions do to what is staged what they do to the part
  have hstart : Staged.Rearranged { table := part.table } { table := s.table } :=
    ⟨hrearranged, rfl, rfl⟩
  have hboth := Parallel.foldlM (fun _ _ a hr => Staged.Rearranged.act hr a) actions' hstart
  rw [hs'] at hboth
  generalize hrun : actions'.foldlM Staged.act { table := s.table } = r at hboth
  cases hboth with
  | @ok _ s'' hr =>
    have hsplit : s = Staged.withReferences s.foreignKeys { table := s.table } := by
      cases s
      cases hnone
      simp [Staged.withReferences]
    have hmore : actions'.foldlM Staged.act s = .ok (s''.withReferences s.foreignKeys) := by
      refine (congrArg (actions'.foldlM Staged.act) hsplit).trans ?_
      rw [Staged.foldlM_act_withReferences, hrun]
      rfl
    have hall : (actions ++ actions').foldlM Staged.act { table := least.table } =
        .ok (s''.withReferences s.foreignKeys) := by
      rw [List.foldlM_append, hs]
      exact hmore
    refine ⟨h.name.trans h'.name, h.inlineEnums.trans h'.inlineEnums, _, hall, ?_, ?_, ?_⟩
    · exact hr.enums.symm.trans hnone'
    · exact hrearranged'.trans hr.table
    · refine hfks'.trans ((hfks.append_right s'.foreignKeys).trans ?_)
      rw [List.append_assoc, hr.foreignKeys]
      exact .refl _

-- ---------------------------------------------------------------------------
-- Two statements for one
-- ---------------------------------------------------------------------------

/-- A statement that defines a table may be replaced by two, which create the table and alter it.
Wherever the table is new in a script, the catalog stays the same up to the order of constraints and
references, and so do the errors and the reports. By themselves the two have no error. -/
structure InTwoSteps (dialect : Dialect) (table : String) (whole part altered : List Token) :
    Prop where
  created : ∃ d, Statement.parse dialect part = .ok (.createTable d)
  changed : ∃ actions, Statement.parse dialect altered = .ok (.change (.alter table actions))
  same    : ∀ (before after : List (Origin × List Token)) (o o' : Origin),
              (({} : Draft).addAll dialect before).catalog.table? table = none →
              (∀ c ∈ changesOf dialect before, sameName table c.table = false) →
              (Extraction.ofStatements dialect (before ++ (o, whole) :: after)).Rearranged
                (Extraction.ofStatements dialect
                  (before ++ (o, part) :: (o', altered) :: after))
  quiet   : ∀ o o' : Origin,
              (Extraction.ofStatements dialect [(o, part), (o', altered)]).errors = []

variable {dialect : Dialect} {table : String}

/-- A definition by itself has no error. -/
theorem errors_ofStatements_single {ts : List Token} {d : TableDefinition}
    (h : Statement.parse dialect ts = .ok (.createTable d)) (o : Origin) :
    (Extraction.ofStatements dialect [(o, ts)]).errors = [] := by
  have hadd : ({} : Draft).addTokens dialect o ts = ({} : Draft).addTable o d := by
    rw [Draft.addTokens, h]
    rfl
  change (({} : Draft).addTokens dialect o ts).finish.errors = []
  rw [hadd, Draft.finish_eq_close, Draft.close_errors]
  rfl

theorem InTwoSteps.ofCompletes {ts ts' altered : List Token} {whole part : TableDefinition}
    {actions : List AlterAction} (hname : part.table.name = table)
    (hwhole : Statement.parse dialect ts = .ok (.createTable whole))
    (hpart : Statement.parse dialect ts' = .ok (.createTable part))
    (haltered : Statement.parse dialect altered = .ok (.change (.alter table actions)))
    (hcompletes : part.Completes actions whole) : InTwoSteps dialect table ts ts' altered := by
  subst hname
  have hsame (before after : List (Origin × List Token)) (o o' : Origin)
      (hnew : (({} : Draft).addAll dialect before).catalog.table? part.table.name = none)
      (hothers : ∀ c ∈ changesOf dialect before, sameName part.table.name c.table = false) :
      (Extraction.ofStatements dialect (before ++ (o, ts) :: after)).Rearranged
        (Extraction.ofStatements dialect (before ++ (o, ts') :: (o', altered) :: after)) :=
    rearranged_ofStatements hwhole hpart haltered hcompletes (hcompletes.name ▸ hnew)
      (hcompletes.name ▸ hothers)
  refine ⟨⟨part, hpart⟩, ⟨actions, haltered⟩, hsame, fun o o' => ?_⟩
  exact (hsame [] [] o o' rfl nofun).errors.symm.trans (errors_ofStatements_single hwhole o)

-- ---------------------------------------------------------------------------
-- Entries that are left out
-- ---------------------------------------------------------------------------

namespace Sql.Parser

section

variable {x : TableText dialect} {before after : List Entry} {whole : TableDefinition}

theorem TableText.definition_eq_ok_iff {es : List Entry} : x.definition es = .ok whole ↔
    DistinctNames ((columnsOf es).map (·.column.name)) ∧
      (({} : TableDraft).withEntries es).definition x.table x.ifNotExists = .ok whole := by
  constructor
  · intro h
    obtain ⟨d, hd, hmade⟩ := ok_of_bind h
    obtain ⟨hdistinct, rfl⟩ := foldlM_enter_empty_iff.1 hd
    exact ⟨hdistinct, hmade⟩
  · rintro ⟨hdistinct, hmade⟩
    rw [definition, foldlM_enter_empty_iff.2 ⟨hdistinct, rfl⟩]
    exact hmade

theorem completes_without_constraint {k : TableConstraint}
    (hks : ∀ k' ∈ constraintsOf (before ++ .constraint k :: after), k'.Filled)
    (h : x.definition (before ++ .constraint k :: after) = .ok whole) :
    ∃ part, x.definition (before ++ after) = .ok part ∧
      part.Completes (TableConstraint.action? k).toList whole := by
  have hcolumns : columnsOf (before ++ .constraint k :: after) = columnsOf (before ++ after) := by
    simp [columnsOf]
  have hconstraints : constraintsOf (before ++ .constraint k :: after) =
      constraintsOf before ++ k :: constraintsOf after := by
    simp [constraintsOf]
  obtain ⟨hdistinct, hmade⟩ := TableText.definition_eq_ok_iff.1 h
  let d := ({} : TableDraft).withEntries (before ++ .constraint k :: after)
  -- the constraint is taken out of the middle, which the table does not notice
  have hperm : d.constraints.Perm (constraintsOf (before ++ after) ++ [k]) := by
    have hkept : constraintsOf (before ++ after) = constraintsOf before ++ constraintsOf after :=
      List.filterMap_append
    change ([] ++ constraintsOf _).Perm _
    rw [List.nil_append, hconstraints, hkept]
    exact List.perm_middle.trans (List.perm_append_singleton _ _).symm
  obtain ⟨part, hpart, hcompletes⟩ := completes_constraints hks hperm hmade
  refine ⟨part, TableText.definition_eq_ok_iff.2 ⟨hcolumns ▸ hdistinct, ?_⟩, ?_⟩
  · have hdraft : ({ d with constraints := constraintsOf (before ++ after) } : TableDraft) =
        ({} : TableDraft).withEntries (before ++ after) := by
      simp only [d, TableDraft.withEntries, hcolumns]
      rfl
    rwa [← hdraft]
  · rwa [filterMap_cons_toList, List.filterMap_nil, List.append_nil] at hcompletes

theorem completes_without_column {c : ColumnDefinition}
    (hks : ∀ k' ∈ constraintsOf (before ++ .column c :: after), k'.Filled)
    (hlast : columnsOf after = []) (hbefore : columnsOf before ≠ [])
    (hkey : c.column.primaryKey = false) (henum : c.inlineEnum = none)
    (hunnamed : ∀ k ∈ constraintsOf (before ++ after), ∀ n ∈ k.columns,
      sameName c.column.name n = false)
    (h : x.definition (before ++ .column c :: after) = .ok whole) :
    ∃ part, x.definition (before ++ after) = .ok part ∧ part.Completes [.addColumn c] whole := by
  -- a constraint is no column, so the column is the last of them
  have hcolumns : columnsOf (before ++ .column c :: after) = columnsOf (before ++ after) ++ [c] := by
    simp_all [columnsOf]
  have hconstraints : constraintsOf (before ++ .column c :: after) =
      constraintsOf (before ++ after) := by
    simp [constraintsOf]
  obtain ⟨hdistinct, hmade⟩ := TableText.definition_eq_ok_iff.1 h
  rw [hcolumns, List.map_append] at hdistinct
  let d := ({} : TableDraft).withEntries (before ++ after)
  have hdraft : ({} : TableDraft).withEntries (before ++ .column c :: after) = { d with
      columns := d.columns ++ [c].map (·.column)
      foreignKeys := d.foreignKeys ++ [c].flatMap (·.foreignKey.toList) } := by
    simp [d, TableDraft.withEntries, hcolumns, hconstraints, henum]
  rw [hdraft] at hmade
  rw [hconstraints] at hks
  have hsome : d.columns ≠ [] := by
    simp_all [d, TableDraft.withEntries, columnsOf]
  obtain ⟨part, hpart, hcompletes⟩ := completes_columns (d := d) hks hsome
    (by simpa [d, TableDraft.withEntries, Function.comp_def] using hdistinct) (by simpa using hkey)
    (by simpa using henum) (by simpa [d, TableDraft.withEntries] using hunnamed) hmade
  exact ⟨part, TableText.definition_eq_ok_iff.2 ⟨(List.pairwise_append.1 hdistinct).1, hpart⟩,
    hcompletes⟩

theorem completes_without_default {c : ColumnDefinition} {expression : String}
    (hks : ∀ k ∈ constraintsOf (before ++ .column c :: after), k.Filled)
    (h : x.definition (before ++ .column { c with column := c.column.withDefault expression } ::
      after) = .ok whole) :
    ∃ part, x.definition (before ++ .column c :: after) = .ok part ∧
      part.Completes [.setDefault c.column.name expression] whole := by
  -- with its default, the column stands where it stood without
  let c' : ColumnDefinition := { c with column := c.column.withDefault expression }
  let d := ({} : TableDraft).withEntries (before ++ .column c :: after)
  have hcolumns (c : ColumnDefinition) : columnsOf (before ++ .column c :: after) =
      columnsOf before ++ c :: columnsOf after := by
    simp [columnsOf]
  have hnames : (columnsOf (before ++ .column c' :: after)).map (·.column.name) =
      (columnsOf (before ++ .column c :: after)).map (·.column.name) := by
    rw [hcolumns, hcolumns, List.map_append, List.map_append]
    rfl
  obtain ⟨hdistinct, hmade⟩ := TableText.definition_eq_ok_iff.1 h
  rw [hnames] at hdistinct
  have hdraft (c : ColumnDefinition) : (({} : TableDraft).withEntries
      (before ++ .column c :: after)).columns = (columnsOf before).map (·.column) ++
        c.column :: (columnsOf after).map (·.column) := by
    rw [TableDraft.withEntries, hcolumns, List.nil_append, List.map_append]
    rfl
  have hwhole : ({} : TableDraft).withEntries (before ++ .column c' :: after) = { d with
      columns := (columnsOf before).map (·.column) ++
        c.column.withDefault expression :: (columnsOf after).map (·.column) } := by
    simp [d, c', TableDraft.withEntries, hcolumns, constraintsOf]
  have hpart : { d with columns := (columnsOf before).map (·.column) ++
      c.column :: (columnsOf after).map (·.column) } = d := by
    rw [← hdraft]
  -- both definitions come from one draft, whose columns differ in that place
  rw [hwhole] at hmade
  have hdistinct' : DistinctNames (((columnsOf before).map (·.column) ++
      c.column :: (columnsOf after).map (·.column)).map (·.name)) := by
    simpa [hcolumns, Function.comp_def] using hdistinct
  obtain ⟨part, hmade', hcompletes⟩ := completes_default (d := d) hks hdistinct' hmade
  rw [hpart] at hmade'
  exact ⟨part, TableText.definition_eq_ok_iff.2 ⟨hdistinct, hmade'⟩, hcompletes⟩

end

-- ---------------------------------------------------------------------------
-- Elements that are split off
-- ---------------------------------------------------------------------------

/-- Elements of a table, those that stay of them, and the parts of an `ALTER TABLE` that the others
are: a constraint of its own, the last column, or the default of a column, one after the other. -/
inductive SplitsOff (dialect : Dialect) (table : String) :
    List (Element dialect table) → List (Element dialect table) → List (List Token) → Prop
  | constraint {first last : List (Element dialect table)} {e : Element dialect table}
      {k : TableConstraint} (he : e.entries = [.constraint k])
      (hbegins : beginsConstraint e.tokens = true) :
      SplitsOff dialect table (first ++ e :: last) (first ++ last) [.keyword .add :: e.tokens]
  /-- The column is the last one but not the only one, it declares no key and no enumeration, and
  no constraint that stays names it. -/
  | column {first last : List (Element dialect table)} {e : Element dialect table}
      {c : ColumnDefinition} (he : e.entries = [.column c])
      (hlast : columnsOf (last.flatMap (·.entries)) = [])
      (hfirst : columnsOf (first.flatMap (·.entries)) ≠ [])
      (hkey : c.column.primaryKey = false) (henum : c.inlineEnum = none)
      (hunnamed : ∀ k ∈ constraintsOf ((first ++ last).flatMap (·.entries)), ∀ n ∈ k.columns,
        sameName c.column.name n = false)
      (hif : front e.tokens ≠ .keyword .ifWord) :
      SplitsOff dialect table (first ++ e :: last) (first ++ last)
        [.keyword .add :: .ident "COLUMN" :: e.tokens]
  | default {first last : List (Element dialect table)} {t : Token}
      (c : DefaultedColumn dialect table) (h : c.Separable) (ht : nameOf? t = some c.name) :
      SplitsOff dialect table (first ++ c.whole :: last) (first ++ c.bare h :: last)
        [setDefaultTokens t c.expression]
  | trans {elements rest stay : List (Element dialect table)} {parts parts' : List (List Token)}
      (h : SplitsOff dialect table elements rest parts)
      (h' : SplitsOff dialect table rest stay parts') :
      SplitsOff dialect table elements stay (parts' ++ parts)

theorem filled_elements (elements : List (Element dialect table)) :
    ∀ k ∈ constraintsOf (elements.flatMap (·.entries)), k.Filled := by
  intro k hk
  rw [constraintsOf, List.filterMap_flatMap] at hk
  obtain ⟨e, -, hk⟩ := List.mem_flatMap.1 hk
  exact e.reads.filled k hk

/-- What stays is a table of its own, and what is split off completes it. -/
theorem SplitsOff.completes {x : TableText dialect} {elements stay : List (Element dialect x.table)}
    {parts : List (List Token)} (h : SplitsOff dialect x.table elements stay parts)
    {whole : TableDefinition} (hwhole : x.definition (elements.flatMap (·.entries)) = .ok whole) :
    ∃ part actions?, x.definition (stay.flatMap (·.entries)) = .ok part ∧
      List.Forall₂ (IsPart dialect x.table) parts actions? ∧
        part.Completes (actions?.flatMap Option.toList) whole := by
  induction h generalizing whole with
  | @constraint first last e k he hbegins =>
    -- the constraint is not the key of another one, so it may come later
    have hfilled := filled_elements (first ++ e :: last)
    rw [List.flatMap_append, List.flatMap_cons, he, List.singleton_append] at hwhole hfilled
    obtain ⟨part, hpart, hcompletes⟩ := completes_without_constraint hfilled hwhole
    refine ⟨part, [TableConstraint.action? k], ?_, .cons (isPart_constraint he hbegins) .nil, ?_⟩
    · rwa [List.flatMap_append]
    · rwa [List.flatMap_singleton]
  | @column first last e c he hlast hfirst hkey henum hunnamed hif =>
    have hfilled := filled_elements (first ++ e :: last)
    rw [List.flatMap_append, List.flatMap_cons, he, List.singleton_append] at hwhole hfilled
    rw [List.flatMap_append] at hunnamed
    obtain ⟨part, hpart, hcompletes⟩ :=
      completes_without_column hfilled hlast hfirst hkey henum hunnamed hwhole
    refine ⟨part, [some (.addColumn c)], ?_, .cons (isPart_column he hif) .nil, hcompletes⟩
    rwa [List.flatMap_append]
  | @default first last t c h ht =>
    have hfilled := filled_elements (first ++ c.bare h :: last)
    -- the default is set by a statement of its own
    rw [List.flatMap_append, List.flatMap_cons] at hwhole hfilled
    obtain ⟨part, hpart, hcompletes⟩ := completes_without_default hfilled hwhole
    have hname : c.definition.column.name = c.name := Clause.name_foldl _ _
    rw [hname] at hcompletes
    have hset : IsPart dialect x.table (setDefaultTokens t c.expression) _ :=
      isPart_default ht c.nonempty fun _ hτ => c.spans_closes hτ
    refine ⟨part, [_], ?_, .cons hset .nil, hcompletes⟩
    rw [List.flatMap_append, List.flatMap_cons]
    exact hpart
  -- the two steps are made one after the other, and so are their parts
  | trans _ _ ih ih' =>
    obtain ⟨rest, actions?, hrest, hparts, hcompletes⟩ := ih hwhole
    obtain ⟨part, actions?', hpart, hparts', hcompletes'⟩ := ih' hrest
    refine ⟨part, actions?' ++ actions?, hpart, List.rel_append hparts' hparts, ?_⟩
    rw [List.flatMap_append]
    exact hcompletes'.trans hcompletes

end Sql.Parser

open Sql.Parser (DefaultedColumn DottedName Element SplitsOff StopsType TableText alterTokens
  commaSeparated exists_defaultedColumn exists_tableText front parse_alterTokens parse_tableText
  setDefaultTokens wordsType writtenType_append writtenType_words)

/-- **Two steps.** Every `CREATE TABLE` that is accepted is laid out in elements. What is split off
from them may be left to an `ALTER TABLE`, which names the table by a word that it does not take for
`IF` or `ONLY`. A default can be split off from every column that has one, unless what stands behind
it would go on with a reference before it. -/
theorem inline_or_altered {ts : List Token} {whole : TableDefinition}
    (h : Statement.parse dialect ts = .ok (.createTable whole)) :
    (∃ x : TableText dialect, x.tokens = ts) ∧
      ∀ x : TableText dialect, x.tokens = ts →
        (∀ e ∈ x.elements, ∀ c, e.entries = [.column c] → c.column.default ≠ none →
          ∃ y : DefaultedColumn dialect x.table, y.whole = e) ∧
        ∀ named, DottedName named x.table → front named ≠ .keyword .ifWord →
          front named ≠ .keyword .only → ∀ stay parts,
            SplitsOff dialect x.table x.elements stay parts →
              InTwoSteps dialect x.table ts (x.tokensWith (stay.map (·.tokens)))
                (alterTokens named parts) := by
  refine ⟨exists_tableText h, ?_⟩
  rintro x rfl
  refine ⟨fun e _ c he hdefault => exists_defaultedColumn he hdefault, ?_⟩
  intro named hnamed hif honly stay parts hsplits
  obtain ⟨whole, hwhole, hmade⟩ := ok_of_map ((parse_tableText x x.elements).symm.trans h)
  cases hmade
  -- the part that stays is a table, and what is split off makes the whole of it
  obtain ⟨part, actions?, hpart, hparts, hcompletes⟩ := hsplits.completes hwhole
  have hname : part.table.name = x.table := by
    obtain ⟨-, hmade⟩ := Sql.Parser.TableText.definition_eq_ok_iff.1 hpart
    exact (Sql.Parser.TableDraft.definition_keeps hmade).1
  have hcreated : Statement.parse dialect (x.tokensWith (stay.map (·.tokens))) =
      .ok (.createTable part) := by
    rw [parse_tableText, hpart]
    rfl
  exact .ofCompletes hname h hcreated (parse_alterTokens hnamed hif honly hparts) hcompletes

/-- A table with a default, a further column and a constraint, none of them in what is created. -/
theorem inline_or_altered_of_three :
    let a : List Token := [.ident "a", .ident "INT"]
    let b : List Token := [.ident "b", .ident "INT"]
    let unique : List Token := [.keyword .unique, .lparen, .ident "b", .rparen]
    let created (elements : List (List Token)) : List Token :=
      tableHead "t" ++ .lparen :: (commaSeparated elements ++ [.rparen])
    InTwoSteps .generic "t" (created [a ++ [.keyword .default, .num "1"], b, unique])
      (created [a])
      (alterTokens [.ident "t"] [setDefaultTokens (.ident "a") [.num "1"],
        .keyword .add :: .ident "COLUMN" :: b, .keyword .add :: unique]) := by
  intro a b unique created
  -- the first column with its default, split into what stands before and behind
  have hstops : StopsType [.keyword .default, .num "1", .rparen] :=
    ⟨Token.noConfusion, Token.noConfusion, Token.noConfusion, rfl⟩
  have htype : Sql.Parser.writtenType "a" [.ident "INT"] = .ok (wordsType "INT" [], []) :=
    writtenType_words "a" (.inl rfl) (List.forall_mem_nil _)
  let y : DefaultedColumn .generic "t" := {
    name := "a", type := wordsType "INT" [], before := a, earlier := [], expression := [.num "1"]
    after := [], later := [], kind := by decide +kernel
    opens := ⟨rfl, _, writtenType_append htype hstops, .nil _⟩
    nonempty := by decide, spans := by decide, ends := .nil _, last := nofun }
  let second : Column := { name := "b", declaredType := "INT", dataType := .integer }
  have hb : Sql.Parser.entry .generic "t" (b ++ [.rparen]) =
      .ok (.column { column := second, foreignKey := none, inlineEnum := none }, [.rparen]) := by
    decide +kernel
  have hunique : Sql.Parser.entry .generic "t" (unique ++ [.rparen]) =
      .ok (.constraint (.unique { name := none, columns := ["b"] }), [.rparen]) := by
    decide +kernel
  let e : Element .generic "t" := ⟨b, _, .cons hb (.nil _)⟩
  let k : Element .generic "t" := ⟨unique, _, .cons hunique (.nil _)⟩
  -- the three elements are split off from the last one on
  let x : TableText .generic :=
    ⟨tableHead "t", "t", false, opens_tableHead .generic "t", [y.whole, e, k], []⟩
  have hconstraint : SplitsOff .generic "t" ([y.whole, e] ++ k :: []) [y.whole, e] _ :=
    .constraint rfl rfl
  have hcolumn : SplitsOff .generic "t" ([y.whole] ++ e :: []) [y.whole] _ :=
    .column rfl rfl (List.cons_ne_nil _ _) rfl rfl nofun Token.noConfusion
  have hseparable : y.Separable := .inl nofun
  have hdefault : SplitsOff .generic "t" ([] ++ y.whole :: []) [y.bare hseparable]
      [setDefaultTokens (.ident "a") [.num "1"]] := .default y hseparable rfl
  let first : Column :=
    { name := "a", declaredType := "INT", dataType := .integer, default := some "1" }
  have hparse : Statement.parse .generic (created [a ++ [.keyword .default, .num "1"], b, unique]) =
      .ok (.createTable {
        table := {
          name := "t", columns := [first, second], uniques := [{ name := none, columns := ["b"] }] }
        foreignKeys := [], inlineEnums := [], ifNotExists := false }) := by
    decide +kernel
  exact ((inline_or_altered hparse).2 x rfl).2 [.ident "t"] (.last rfl) Token.noConfusion
    Token.noConfusion _ _ (hconstraint.trans (hcolumn.trans hdefault))

-- ---------------------------------------------------------------------------
-- What one of the two statements takes for something else
-- ---------------------------------------------------------------------------

-- the places of the statements in a script do not matter here
private def extracted (statements : List (List Token)) : Extraction :=
  Extraction.ofStatements .generic (statements.map fun ts => (⟨1, ""⟩, ts))

private def created (named : Token) (elements : List (List Token)) : List Token :=
  .keyword .create :: .keyword .table :: named :: .lparen :: (commaSeparated elements ++ [.rparen])

private def columnA : List Token :=
  [.ident "a", .ident "INT"]

/-- **An index with a method and no name.** A `CREATE TABLE` takes it for a column, so there the index
is lost. An `ALTER TABLE` reads the index. -/
theorem index_misread_when_created :
    let index : List Token :=
      [.keyword .key, .ident "USING", .ident "BTREE", .lparen, .ident "a", .rparen]
    let tables (x : Extraction) := x.catalog.tables.map fun t => (t.columnNames, t.indexes)
    tables (extracted [created (.ident "t") [columnA, index]]) = [(["a", "key"], [])] ∧
      tables (extracted [created (.ident "t") [columnA],
        alterTokens [.ident "t"] [.keyword .add :: index]]) =
          [(["a"], [{ name := none, columns := ["a"], unique := false }])] := by
  decide +kernel

/-- A column called `IF` has to stay: `ADD COLUMN` takes the bare word for the beginning of a
guard. -/
theorem if_misread_when_added :
    let column : List Token := [.keyword .ifWord, .ident "INT"]
    (extracted [created (.ident "t") [columnA, column]]).errors.length = 0 ∧
      (extracted [created (.ident "t") [columnA],
        alterTokens [.ident "t"] [.keyword .add :: .ident "COLUMN" :: column]]).errors.length = 1 := by
  decide +kernel

/-- A table called `ONLY` cannot be altered by the bare word, which stands before a name there. -/
theorem only_misread_when_altered :
    let unique : List Token := [.keyword .unique, .lparen, .ident "a", .rparen]
    (extracted [created (.keyword .only) [columnA, unique]]).errors.length = 0 ∧
      (extracted [created (.keyword .only) [columnA],
        alterTokens [.keyword .only] [.keyword .add :: unique]]).errors.length = 1 := by
  decide +kernel

/-- A default has to stay between a reference and actions. Behind the default the actions are no
part of the reference, and once it is gone they are. -/
theorem actions_join_reference :
    let target : List Token :=
      created (.ident "p") [[.ident "k", .ident "INT", .keyword .primary, .keyword .key]]
    let reference : List Token := [.keyword .references, .ident "p"]
    let default : List Token := [.keyword .default, .num "1"]
    let cascade : List Token := [.keyword .on, .keyword .delete, .keyword .cascade]
    let actions (x : Extraction) := x.catalog.tables.map fun t => t.foreignKeys.map (·.onDelete)
    actions (extracted [target, created (.ident "t") [columnA ++ reference ++ default ++ cascade]]) =
        [[], [.noAction]] ∧
      actions (extracted [target, created (.ident "t") [columnA ++ reference ++ cascade],
        alterTokens [.ident "t"] [setDefaultTokens (.ident "a") [.num "1"]]]) =
          [[], [.cascade]] := by
  decide +kernel

end CrudGen
