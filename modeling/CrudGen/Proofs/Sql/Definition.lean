import CrudGen.Proofs.Data.Except
import CrudGen.Proofs.Sql.Clauses
import CrudGen.Proofs.Sql.Entries
import CrudGen.Sql.Parser.Statement

/-!
# Statements — what they declare

A reference among the clauses of a column stands in that column. Hence the table of a definition is
drafted, and so are the columns that a change adds.

Main results:

* `Statement.parsed_of_parse` — what a statement that parses is made of.
* `Statement.sound_of_parse` — every statement that parses is sound in this sense.
-/

namespace CrudGen.Sql

open Text (sameName)

/-- The reference of a column stands in that column. -/
def ColumnDefinition.OwnsReference (d : ColumnDefinition) : Prop :=
  ∀ fk ∈ d.foreignKey, fk.columns = [d.column.name]

/-- A change adds only columns that own their references. -/
def AlterAction.Sound : AlterAction → Prop
  | .addColumn d => d.OwnsReference
  | _ => True

/-- A change all of whose actions are sound. -/
def TableChange.Sound : TableChange → Prop
  | .index _ _ => True
  | .alter _ actions => ∀ a ∈ actions, a.Sound

/-- A statement that defines a drafted table, or makes a sound change. -/
def Statement.Sound : Statement → Prop
  | .createTable d => d.table.Drafted d.foreignKeys
  | .change c => c.Sound
  | _ => True

namespace Parser

-- ---------------------------------------------------------------------------
-- Columns
-- ---------------------------------------------------------------------------

/-- The reference noted in a draft stands in its column. -/
def ColumnDraft.OwnsReference (d : ColumnDraft) : Prop :=
  ∀ fk ∈ d.foreignKey, fk.columns = [d.column.name]

/-- No clause changes whose reference a column has. -/
theorem clauseInvariant_ownsReference : ClauseInvariant ColumnDraft.OwnsReference where
  change hf h fk hfk := (h fk hfk).trans (congrArg (fun s => [s.1]) (hf _).symm)
  reference hcolumns _ := by
    rintro _ ⟨⟩
    exact hcolumns

/-- A reference of a column is one from that column. -/
theorem yields_column {dialect : Dialect} {table : String} :
    Yields (column dialect table) ColumnDefinition.OwnsReference := by
  refine .next fun columnName => .next fun written => .bind
    (.iterate (I := ColumnDraft.OwnsReference) ?_ fun d hd =>
      yields_columnClause clauseInvariant_ownsReference hd)
    fun d hd => .pure hd
  rintro _ ⟨⟩

-- ---------------------------------------------------------------------------
-- Tables
-- ---------------------------------------------------------------------------

/-- Columns of a draft differ in name, and references noted in it stand in them. -/
structure TableDraft.Sound (d : TableDraft) : Prop where
  distinct   : DistinctNames (d.columns.map (·.name))
  references : ∀ fk ∈ d.foreignKeys, ∀ c ∈ fk.columns, c ∈ d.columns.map (·.name)

/-- A column that is added keeps the draft sound. -/
theorem TableDraft.Sound.addColumn {d d' : TableDraft} (h : d.Sound) {c : ColumnDefinition}
    (hc : c.OwnsReference) (hadd : d.addColumn c = .ok d') : d'.Sound := by
  unfold TableDraft.addColumn at hadd
  split at hadd
  · cases hadd
  · rename_i hnew
    cases hadd
    refine ⟨?_, fun fk hfk => ?_⟩
    · rw [List.map_append]
      refine h.distinct.concat fun other hother => ?_
      obtain ⟨o, ho, rfl⟩ := List.mem_map.1 hother
      by_contra hsame
      exact hnew (List.any_eq_true.2 ⟨o, ho, by simpa using hsame⟩)
    · rw [List.map_append]
      rcases List.mem_append.1 hfk with hold | hadded
      · exact fun n hn => List.mem_append_left _ (h.references fk hold n hn)
      · rw [hc fk (Option.mem_toList.1 hadded)]
        exact fun n hn => List.mem_append_right _ hn

/-- The reference of a column that is entered stands in it. -/
def Entry.OwnsReference : Entry → Prop
  | .column c => c.OwnsReference
  | _ => True

theorem TableDraft.Sound.enter {d d' : TableDraft} (h : d.Sound) {e : Entry}
    (he : e.OwnsReference) (hd' : d.enter e = .ok d') : d'.Sound := by
  cases e with
  | column c => exact h.addColumn he hd'
  | constraint k =>
    cases hd'
    exact ⟨h.distinct, h.references⟩
  | skipped =>
    cases hd'
    exact h

theorem TableDraft.Sound.element {dialect : Dialect} {table : String} {d : TableDraft}
    (h : d.Sound) : Yields (tableElement dialect table d) fun next => next.value.Sound :=
  yields_tableElement (P := Entry.OwnsReference)
    (yields_entryFrom yields_column (fun _ => .imp .trivial fun _ => id) (.imp .trivial fun _ => id)
      True.intro)
    (fun _ _ he hd' => h.enter he hd') h

/-- A constraint keeps a table drafted together with the references that stand in it. -/
theorem drafted_applyConstraint {s s' : Table × List PendingForeignKey} {c : TableConstraint}
    (h : s.1.Drafted s.2) (hc : applyConstraint s c = .ok s') : s'.1.Drafted s'.2 := by
  obtain ⟨t, fks⟩ := s
  -- every constraint but an ignored one first has its columns looked up
  have hlookup {columns : List String} {context : String}
      {f : List String → Except SyntaxError (Table × List PendingForeignKey)}
      (hbind : (requireColumns t columns context >>= f) = .ok s') :
      ∃ found, (∀ c ∈ found, c ∈ t.columnNames) ∧ f found = .ok s' := by
    obtain ⟨found, hfound, hset⟩ := ok_of_bind hbind
    exact ⟨found, (Table.declaredColumns_eq_ok (ok_of_mapError hfound)).1, hset⟩
  cases c with
  | primaryKey columns =>
    obtain ⟨found, hfound, hset⟩ := hlookup hc
    dsimp only at hset
    split at hset
    · cases hset
    · cases hset
      exact h.setPrimaryKey hfound
  | unique u =>
    obtain ⟨found, hfound, hset⟩ := hlookup hc
    cases hset
    exact h.addUnique hfound
  | foreignKey fk =>
    obtain ⟨found, hfound, hset⟩ := hlookup hc
    cases hset
    exact h.addReference hfound
  | index i =>
    obtain ⟨found, hfound, hset⟩ := hlookup hc
    cases hset
    exact h.addIndex hfound
  | ignored =>
    cases hc
    exact h

/-- What a sound draft defines is a table whose constraints and references stand in it. -/
theorem TableDraft.Sound.definition {d : TableDraft} (h : d.Sound) {table : String}
    {ifNotExists : Bool} {definition : TableDefinition}
    (hd : d.definition table ifNotExists = .ok definition) :
    definition.table.Drafted definition.foreignKeys := by
  unfold TableDraft.definition at hd
  dsimp only at hd
  split at hd
  · cases hd
  · rename_i hcolumns
    split at hd
    · cases hd
    · -- the constraints are applied one by one to a table with all the columns
      let start : Table :=
        { name := table
          columns := d.columns
          primaryKey := (d.columns.filter (·.primaryKey)).map (·.name) }
      have hstart : start.Drafted d.foreignKeys := by
        refine ⟨⟨?_, h.distinct, ?_, by simp [start], by simp [start], by simp [start]⟩, rfl,
          h.references⟩
        · simpa [start] using hcolumns
        · intro n hn
          obtain ⟨c, hc, rfl⟩ := List.mem_map.1 hn
          exact List.mem_map_of_mem (List.mem_filter.1 hc).1
      obtain ⟨s, hall, hmade⟩ := ok_of_bind hd
      have hs : s.1.Drafted s.2 :=
        foldlM_ok (I := fun s : Table × List PendingForeignKey => s.1.Drafted s.2)
          (fun c _ s s' h hc => drafted_applyConstraint h hc) hstart hall
      cases hmade
      exact hs.markPrimaryKey

/-- A definition that the elements of a table make up, from a sound draft of them. -/
def MadeOfElements (t : TableDefinition) : Prop :=
  ∃ (d : TableDraft) (table : String) (ifNotExists : Bool),
    d.Sound ∧ d.definition table ifNotExists = .ok t

end Parser

/-- What is known of a statement that parses: a definition is made of elements, and a change is
sound. -/
def Statement.Parsed : Statement → Prop
  | .createTable t => Parser.MadeOfElements t
  | .change c => c.Sound
  | _ => True

namespace Parser

/-- A table is read as a sound definition. -/
theorem yields_createTable {dialect : Dialect} :
    Yields (createTable dialect) Statement.Parsed := by
  refine .next fun ifNotExists => .next fun table => .next fun _ => .ite (fun _ => ?_)
    fun _ => .pure True.intro
  refine .bind (.iterate (I := TableDraft.Sound) ⟨.nil, by simp⟩ fun d hd => hd.element)
    fun d hd => .bind (P := MadeOfElements) (.lift fun definition hdef => ?_)
      fun definition hdef => .pure hdef
  exact ⟨d, table, ifNotExists, hd, hdef⟩

-- ---------------------------------------------------------------------------
-- Other statements
-- ---------------------------------------------------------------------------

/-- What is added to a table is sound. -/
theorem yields_addition {dialect : Dialect} {table : String} {constraint : Option String} :
    Yields (addition dialect table constraint) fun action => ∀ a ∈ action, a.Sound := by
  have hconstraint (c : TableConstraint) : ∀ a ∈ TableConstraint.action? c, a.Sound := by
    cases c <;> rintro _ ⟨⟩ <;> exact True.intro
  refine .next fun t => ?_
  split
  · exact .next fun c => .pure (hconstraint c)
  · exact .next fun c => .pure (hconstraint c)
  · exact .next fun c => .pure (hconstraint c)
  · exact .next fun c => .pure (hconstraint c)
  · exact .next fun _ => .next fun i => .pure (by rintro _ ⟨⟩; exact True.intro)
  · exact .next fun _ => .next fun i => .pure (by rintro _ ⟨⟩; exact True.intro)
  · exact .next fun _ => .next fun _ => .bind yields_column fun d hd =>
      .pure (by rintro _ ⟨⟩; exact hd)

theorem yields_alterAdd {dialect : Dialect} {table : String} :
    Yields (alterAdd dialect table) fun action => ∀ a ∈ action, a.Sound :=
  .next fun _ => .ite (fun _ => .next fun _ => yields_addition) fun _ =>
    .next fun _ => yields_addition

/-- A change of a column sets its default. -/
theorem yields_alterColumn : Yields alterColumn fun action =>
    ∀ a ∈ action, ∃ target expression, a = .setDefault target expression := by
  refine .next fun _ => .next fun target => .next fun t => .next fun after => .ite (fun _ => ?_)
    fun _ => .next fun _ => .pure (by rintro _ ⟨⟩)
  refine .next fun _ => .next fun _ => .next fun expression => .pure ?_
  rintro _ ⟨⟩
  exact ⟨target, expression, rfl⟩

/-- A part of a change keeps its actions sound. -/
theorem yields_alterElement {dialect : Dialect} {table : String} {actions : List AlterAction}
    (h : ∀ a ∈ actions, a.Sound) :
    Yields (alterElement dialect table actions) fun next => ∀ a ∈ next.value, a.Sound := by
  have happend {action : Option AlterAction} (haction : ∀ a ∈ action, a.Sound) :
      ∀ a ∈ actions ++ action.toList, a.Sound :=
    List.forall_mem_append.2 ⟨h, fun a ha => haction a (Option.mem_toList.1 ha)⟩
  refine .next fun t => ?_
  split
  · exact .pure h
  · exact .next fun _ => .pure h
  · exact .next fun _ => .pure h
  · exact .next fun _ => .bind yields_alterAdd fun action haction => .pure (happend haction)
  · refine .next fun _ => .bind yields_alterColumn fun action haction => .pure (happend ?_)
    intro a ha
    obtain ⟨target, expression, rfl⟩ := haction a ha
    exact True.intro
  · exact .next fun _ => .pure h

/-- A change is made of sound actions, or is skipped. -/
theorem yields_alter {dialect : Dialect} : Yields (alter dialect) fun s =>
    s = .skipped ∨
      ∃ table actions, s = .change (.alter table actions) ∧ ∀ a ∈ actions, a.Sound := by
  refine .next fun _ => .ite (fun _ => ?_) fun _ => .pure (.inl rfl)
  refine .next fun _ => .next fun _ => .next fun table => .bind
    (.iterate (I := fun actions => ∀ a ∈ actions, a.Sound) (by simp)
      fun actions hactions => yields_alterElement hactions)
    fun actions hactions => ?_
  exact .pure (.inr ⟨table, actions, rfl, hactions⟩)

/-- An index changes its table. -/
theorem yields_indexOn {unique : Bool} {indexName : Option String} {table : String}
    {d : IndexDraft} : Yields (indexOn unique indexName table d) fun s =>
      ∃ table index, s = .change (.index table index) :=
  .ite (fun _ => .next fun _ => .pure ⟨table, _, rfl⟩) fun _ => .pure ⟨table, _, rfl⟩

/-- An index is read as a change of its table. -/
theorem yields_createIndex {unique : Bool} : Yields (createIndex unique) fun s =>
    ∃ table index, s = .change (.index table index) :=
  .next fun _ => .next fun _ => .next fun _ => .next fun _ => yields_indexOn

/-- A sequence is read as one. -/
theorem yields_createSequence : Yields createSequence fun s => ∃ q, s = .createSequence q :=
  .next fun _ => .next fun _ => .next fun q => .pure ⟨q, rfl⟩

/-- An enumeration is read as one, and other types are skipped. -/
theorem yields_createType : Yields createType fun s =>
    s = .skipped ∨ ∃ e, s = .createEnum e := by
  refine .next fun type => .next fun _ => .ite (fun _ => ?_) fun _ => .pure (.inl rfl)
  refine .next fun _ => .ite (fun _ => ?_) fun _ => .pure (.inl rfl)
  exact .next fun _ => .next fun labels => .pure (.inr ⟨_, rfl⟩)

/-- What is created is sound. -/
theorem yields_create {dialect : Dialect} : Yields (create dialect) Statement.Parsed := by
  have hindex {unique : Bool} : Yields (createIndex unique) Statement.Parsed := by
    refine yields_createIndex.imp ?_
    rintro _ ⟨table, index, rfl⟩
    exact True.intro
  refine .next fun _ => .next fun t => ?_
  split
  · exact .next fun _ => yields_createTable
  · exact .next fun _ => .next fun _ => hindex
  · exact .next fun _ => hindex
  · refine .next fun _ => yields_createSequence.imp ?_
    rintro _ ⟨q, rfl⟩
    exact True.intro
  · refine .ite (fun _ => .next fun _ => yields_createType.imp ?_) fun _ => .pure True.intro
    rintro _ (rfl | ⟨e, rfl⟩) <;> exact True.intro

/-- Every statement is sound. -/
theorem yields_statement {dialect : Dialect} : Yields (statement dialect) Statement.Parsed := by
  refine .next fun t => ?_
  split
  · exact .next fun _ => yields_create
  · refine .next fun _ => yields_alter.imp ?_
    rintro _ (rfl | ⟨table, actions, rfl, hactions⟩)
    · exact True.intro
    · exact hactions
  · exact .pure True.intro

end Parser

/-- Every statement that is parsed is sound. -/
theorem Statement.parsed_of_parse {dialect : Dialect} {tokens : List Token} {s : Statement}
    (h : Statement.parse dialect tokens = .ok s) : s.Parsed := by
  obtain ⟨⟨_, rest⟩, hrun, rfl⟩ := ok_of_map h
  exact Parser.yields_statement _ _ _ hrun

/-- **Statements.** What parses is sound. -/
theorem Statement.sound_of_parse {dialect : Dialect} {tokens : List Token} {s : Statement}
    (h : Statement.parse dialect tokens = .ok s) : s.Sound := by
  have hparsed := parsed_of_parse h
  cases s with
  | createTable t =>
    obtain ⟨d, table, ifNotExists, hd, hdef⟩ := hparsed
    exact hd.definition hdef
  | change c => exact hparsed
  | createSequence | createEnum | skipped => exact True.intro

end CrudGen.Sql
