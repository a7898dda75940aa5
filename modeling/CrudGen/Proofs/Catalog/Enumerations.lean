import CrudGen.Proofs.Catalog.Collected
import CrudGen.Proofs.Sql.Columns

/-!
# Catalogs — enumerations and the columns that declare them

`acceptedStatements` are the statements that take effect: the definitions that the first pass keeps,
then the changes that the second pass applies. Of the enumerations that they declare, by a statement
of their own or among the columns of a table, a catalog keeps the first one of each name.

Main results:

* `stems_ofStatements` — every column stems from an accepted statement, which writes its type.
* `inlineEnums_first` — a column that is declared with labels has the first enumeration of its name.
* `inlineEnums_share_name` — which need not be its own.
-/

namespace CrudGen

open Text (sameName)
open Sql (AlterAction ColumnDefinition Dialect PendingForeignKey Statement TableChange Token)
open Sql.Parser (WrittenType arrayOf DeclaredIn Declares)

-- ---------------------------------------------------------------------------
-- Statements that take effect
-- ---------------------------------------------------------------------------

/-- The column that an action adds. -/
def Sql.AlterAction.column? : AlterAction → Option ColumnDefinition
  | .addColumn d => some d
  | _ => none

/-- The columns that a change adds. -/
def Sql.TableChange.columns : TableChange → List ColumnDefinition
  | .index _ _ => []
  | .alter _ actions => actions.filterMap (·.column?)

/-- The enumerations that a statement declares, those of columns that it adds among them. -/
def Sql.Statement.allEnums : Statement → List EnumType
  | .change c => c.columns.filterMap (·.inlineEnum)
  | s => s.enums

namespace Draft

/-- What takes effect of a statement in the first pass. -/
def accepts (d : Draft) : Statement → List Statement
  | .createTable t => if (d.catalog.table? t.table.name).isSome then [] else [.createTable t]
  | .change _ => []
  | s => [s]

/-- What takes effect of a change in the second pass. -/
def applies (d : Draft) (c : TableChange) : List Statement :=
  match CrudGen.TableChange.apply d.catalog c with
  | .ok _ => [.change c]
  | .error _ => []

/-- The statements that a first pass accepts. -/
def allAccepted (dialect : Dialect) : Draft → List (Origin × List Token) → List Statement
  | _, [] => []
  | d, (o, tokens) :: rest =>
    (Statement.parse dialect tokens).toOption.toList.flatMap d.accepts ++
      allAccepted dialect (d.addTokens dialect o tokens) rest

/-- The changes that a second pass applies. -/
def allApplied : Draft → List (Origin × TableChange) → List Statement
  | _, [] => []
  | d, (o, c) :: rest => d.applies c ++ allApplied (d.applyChange o c) rest

end Draft

/-- The statements that take effect, in the order in which they do. -/
def acceptedStatements (dialect : Dialect) (statements : List (Origin × List Token)) :
    List Statement :=
  let d := ({} : Draft).addAll dialect statements
  Draft.allAccepted dialect {} statements ++ d.allApplied d.changes

/-- The enumerations that accepted statements declare. -/
def acceptedEnums (dialect : Dialect) (statements : List (Origin × List Token)) : List EnumType :=
  (acceptedStatements dialect statements).flatMap (·.allEnums)

-- ---------------------------------------------------------------------------
-- The first enumeration of each name
-- ---------------------------------------------------------------------------

/-- A catalog has the first of these enumerations for every name. -/
def Catalog.ListsFirst (c : Catalog) (es : List EnumType) : Prop :=
  ∀ name, c.enums.find? (·.name == name) = es.find? (·.name == name)

namespace Catalog.ListsFirst

variable {c c' : Catalog} {es : List EnumType}

theorem congr (h : c.ListsFirst es) (hc : c'.enums = c.enums) : c'.ListsFirst es := by
  rw [ListsFirst, hc]
  exact h

/-- An enumeration that is added counts unless there is one of its name. -/
theorem addEnum (h : c.ListsFirst es) (e : EnumType) : (c.addEnum e).ListsFirst (es ++ [e]) := by
  intro name
  rw [List.find?_append, ← h name, Catalog.addEnum]
  split
  · rename_i hany
    by_cases hname : e.name = name
    · subst hname
      have hsome : (c.enums.find? (·.name == e.name)).isSome := by
        rw [List.find?_isSome]
        simpa using hany
      rw [Option.or_of_isSome hsome]
    · rw [List.find?_singleton, if_neg (by simpa using hname), Option.or_none]
  · rw [List.find?_append]

/-- Of enumerations with one name, the first is listed. -/
theorem addEnums (h : c.ListsFirst es) (new : List EnumType) :
    (new.foldl Catalog.addEnum c).ListsFirst (es ++ new) := by
  induction new generalizing c es with
  | nil => exact (List.append_nil es).symm ▸ h
  | cons e rest ih =>
    rw [List.foldl_cons, List.append_cons]
    exact ih (h.addEnum e)

/-- Every enumeration is listed, or one with its name was listed before. -/
theorem mem (h : c.ListsFirst es) {e : EnumType} (he : e ∈ es) :
    ∃ first ∈ c.enums, first.name = e.name ∧ es.find? (·.name == e.name) = some first := by
  have hsome : (es.find? (·.name == e.name)).isSome := by
    rw [List.find?_isSome]
    exact ⟨e, he, by simp⟩
  obtain ⟨first, hfirst⟩ := Option.isSome_iff_exists.1 hsome
  refine ⟨first, List.mem_of_find?_eq_some ((h e.name).trans hfirst), ?_, hfirst⟩
  simpa using List.find?_some hfirst

end Catalog.ListsFirst

-- ---------------------------------------------------------------------------
-- Columns that actions add
-- ---------------------------------------------------------------------------

/-- An action changes no name and no type; it may add a column, with its enumeration. -/
theorem Staged.Act.columns {s s' : Staged} {a : AlterAction} (h : s.Act a s') :
    s'.table.columns.map (·.signature) =
        s.table.columns.map (·.signature) ++ a.column?.toList.map (·.column.signature) ∧
      s'.enums = s.enums ++ a.column?.toList.filterMap (·.inlineEnum) := by
  cases h with
  | @addColumn d hnew =>
    refine ⟨List.map_append, congrArg (s.enums ++ ·) ?_⟩
    cases hd : d.inlineEnum <;> simp [AlterAction.column?, hd]
  | addForeignKey | addUnique | addIndex =>
    exact ⟨(List.append_nil _).symm, (List.append_nil _).symm⟩
  | addPrimaryKey =>
    refine ⟨?_, (List.append_nil _).symm⟩
    exact Table.signatures_markPrimaryKey.trans (List.append_nil _).symm
  | setDefault =>
    refine ⟨?_, (List.append_nil _).symm⟩
    rw [map_modifyFirst]
    · exact (List.append_nil _).symm
    · exact fun _ => rfl

/-- Actions add their columns, and the enumerations of these. -/
theorem Staged.columns_of_actions {actions : List AlterAction} {s s' : Staged}
    (h : actions.foldlM Staged.act s = .ok s') :
    s'.table.columns.map (·.signature) = s.table.columns.map (·.signature) ++
        (actions.filterMap (·.column?)).map (·.column.signature) ∧
      s'.enums = s.enums ++ (actions.filterMap (·.column?)).filterMap (·.inlineEnum) := by
  induction actions generalizing s with
  | nil =>
    cases h
    exact ⟨(List.append_nil _).symm, (List.append_nil _).symm⟩
  | cons a rest ih =>
    rw [List.foldlM_cons] at h
    obtain ⟨s₁, hfirst, hrest⟩ := ok_of_bind h
    obtain ⟨hcolumns, henums⟩ := (act_cases hfirst).columns
    obtain ⟨hcolumns', henums'⟩ := ih hrest
    -- an action adds one column at most, behind those that are there
    have hcons : (a :: rest).filterMap (·.column?) =
        a.column?.toList ++ rest.filterMap (·.column?) := by
      rw [List.filterMap_cons]
      cases a.column? <;> rfl
    rw [hcons, List.map_append, List.filterMap_append, ← List.append_assoc, ← List.append_assoc,
      ← hcolumns, ← henums]
    exact ⟨hcolumns', henums'⟩

-- ---------------------------------------------------------------------------
-- Where columns stem from
-- ---------------------------------------------------------------------------

/-- A column `n` of a table `t` stems from an accepted statement, which declares it with the type
`w` for that table, in this or another spelling, and asks for its enumeration if it has labels. -/
structure StemsFrom (dialect : Dialect) (statements : List (Origin × List Token))
    (accepted : List Statement) (t n table : String) (w : WrittenType) : Prop where
  sameTable : sameName t table = true
  declared  : ∃ tokens ∈ statements.map (·.2), ∃ s ∈ accepted,
                Statement.parse dialect tokens = .ok s ∧ Declares dialect tokens table n w
  asked     : ∀ e ∈ w.inlineEnum? table n, e ∈ accepted.flatMap (·.allEnums)

variable {dialect : Dialect} {statements : List (Origin × List Token)}
  {accepted accepted' : List Statement} {t n table : String} {w : WrittenType}

theorem StemsFrom.mono (h : StemsFrom dialect statements accepted t n table w)
    (hsub : accepted ⊆ accepted') : StemsFrom dialect statements accepted' t n table w := by
  obtain ⟨hname, ⟨tokens, hmem, s, hs, hrest⟩, hasked⟩ := h
  refine ⟨hname, ⟨tokens, hmem, s, hsub hs, hrest⟩, fun e he => ?_⟩
  obtain ⟨s, hs, he⟩ := List.mem_flatMap.1 (hasked e he)
  exact List.mem_flatMap.2 ⟨s, hsub hs, he⟩

/-- Every column of a table stems from an accepted statement and has the type written there. -/
def Table.Traced (dialect : Dialect) (statements : List (Origin × List Token))
    (accepted : List Statement) (t : Table) : Prop :=
  ∀ c ∈ t.columns, ∃ table w, StemsFrom dialect statements accepted t.name c.name table w ∧
    c.signature = w.signature dialect table c.name

namespace Table.Traced

variable {t t' : Table}

theorem mono (h : t.Traced dialect statements accepted) (hsub : accepted ⊆ accepted') :
    t.Traced dialect statements accepted' := by
  intro c hc
  obtain ⟨table, w, hstems, hw⟩ := h c hc
  exact ⟨table, w, hstems.mono hsub, hw⟩

/-- Only names and types of columns matter. -/
theorem of_signatures (hname : t'.name = t.name)
    (h : ∀ signature ∈ t'.columns.map (·.signature), ∃ table w,
      StemsFrom dialect statements accepted t.name signature.1 table w ∧
        signature = w.signature dialect table signature.1) :
    t'.Traced dialect statements accepted := by
  intro c hc
  rw [hname]
  exact h c.signature (List.mem_map_of_mem hc)

/-- A column that a statement declares stems from it once the statement is accepted. -/
theorem stems_of_declaredIn {s : Statement} {tokens : List Token} {enums : List EnumType}
    {c : Column} {name : String} (hmem : tokens ∈ statements.map (·.2)) (hs : s ∈ accepted)
    (hparse : Statement.parse dialect tokens = .ok s) (henums : enums ⊆ s.allEnums)
    (hname : sameName name table = true) (h : DeclaredIn dialect tokens table enums c) :
    ∃ table w, StemsFrom dialect statements accepted name c.name table w ∧
      c.signature = w.signature dialect table c.name := by
  obtain ⟨w, hdeclares, hsignature, hasked⟩ := h
  refine ⟨table, w, ⟨hname, ⟨tokens, hmem, s, hs, hparse, hdeclares⟩, fun e he => ?_⟩, hsignature⟩
  exact List.mem_flatMap.2 ⟨s, hs, henums (hasked e he)⟩

end Table.Traced

/-- A draft whose columns all stem from the statements that took effect so far, and whose
enumerations are the first ones of these. -/
structure Draft.Traces (dialect : Dialect) (statements : List (Origin × List Token)) (d : Draft)
    (accepted : List Statement) : Prop where
  enums  : d.catalog.ListsFirst (accepted.flatMap (·.allEnums))
  tables : ∀ t ∈ d.catalog.tables, t.Traced dialect statements accepted

namespace Draft.Traces

variable {d : Draft}

/-- A statement that touches no table takes effect with the enumerations that it declares. -/
theorem accept (h : d.Traces dialect statements accepted) {d' : Draft} {s : Statement}
    (htables : d'.catalog.tables = d.catalog.tables)
    (henums : d'.catalog.ListsFirst (accepted.flatMap (·.allEnums) ++ s.allEnums)) :
    d'.Traces dialect statements (accepted ++ [s]) := by
  refine ⟨?_, fun t ht => ?_⟩
  · rw [List.flatMap_append, List.flatMap_singleton]
    exact henums
  · exact (h.tables t (htables ▸ ht)).mono (List.subset_append_left _ _)

/-- A statement that is added traces its table, and the columns of it. -/
theorem addTokens (h : d.Traces dialect statements accepted) {tokens : List Token}
    (hmem : tokens ∈ statements.map (·.2)) (o : Origin) :
    (d.addTokens dialect o tokens).Traces dialect statements
      (accepted ++ (Statement.parse dialect tokens).toOption.toList.flatMap d.accepts) := by
  have hnone {d' : Draft} (hcatalog : d'.catalog = d.catalog) :
      d'.Traces dialect statements (accepted ++ []) := by
    rw [List.append_nil]
    exact ⟨hcatalog ▸ h.enums, hcatalog ▸ h.tables⟩
  unfold Draft.addTokens
  cases hparse : Statement.parse dialect tokens with
  | error e => exact hnone rfl
  | ok s =>
    simp only [Except.toOption, Option.toList_some, List.flatMap_singleton]
    cases s with
    | createTable t =>
      simp only [Draft.add, Draft.addTable, accepts]
      split
      -- a table of this name is there already: nothing is accepted
      · split <;> exact hnone rfl
      · refine ⟨?_, ?_⟩
        · rw [List.flatMap_append, List.flatMap_singleton]
          exact (h.enums.addEnums t.inlineEnums).congr rfl
        · dsimp only
          rw [Catalog.tables_addEnums]
          refine List.forall_mem_append.2 ⟨fun u hu => ?_,
            List.forall_mem_singleton.2 fun c hc => ?_⟩
          -- the tables before stem from more statements now, and the new one from this
          · exact (h.tables u hu).mono (List.subset_append_left _ _)
          · exact Table.Traced.stems_of_declaredIn hmem
              (List.mem_append_right _ (List.mem_singleton_self _)) hparse (List.Subset.refl _)
              (sameName_self _) (Sql.Parser.declares_of_createTable hparse c hc)
    | createSequence q =>
      refine h.accept (Catalog.tables_addSequence _ q) ((List.append_nil _).symm ▸ ?_)
      exact h.enums.congr (enums_addSequence _ q)
    | createEnum e => exact h.accept (Catalog.tables_addEnum _ e) (h.enums.addEnum e)
    | change c => exact hnone rfl
    | skipped => exact h.accept rfl ((List.append_nil _).symm ▸ h.enums)

theorem addAll (h : d.Traces dialect statements accepted) {rest : List (Origin × List Token)}
    (hrest : rest ⊆ statements) :
    (d.addAll dialect rest).Traces dialect statements
      (accepted ++ d.allAccepted dialect rest) := by
  induction rest generalizing d accepted with
  | nil => exact (List.append_nil accepted).symm ▸ h
  | cons s rest ih =>
    obtain ⟨hmem, hrest⟩ := List.cons_subset.1 hrest
    change ((d.addTokens dialect s.1 s.2).addAll dialect rest).Traces dialect statements
      (accepted ++ (_ ++ allAccepted dialect (d.addTokens dialect s.1 s.2) rest))
    rw [← List.append_assoc]
    exact ih (h.addTokens (List.mem_map_of_mem hmem) s.1) hrest

/-- A change takes effect with the columns that it adds. -/
theorem applied (h : d.Traces dialect statements accepted) {c : TableChange} {catalog : Catalog}
    {refs pending : List (String × PendingForeignKey)} {tokens : List Token}
    (hmem : tokens ∈ statements.map (·.2))
    (hparse : Statement.parse dialect tokens = .ok (.change c))
    (happlied : c.Applied d.catalog (catalog, refs)) :
    ({ d with catalog, pending } : Draft).Traces dialect statements (accepted ++ [.change c]) := by
  have hsub : accepted ⊆ accepted ++ [.change c] := List.subset_append_left _ _
  cases happlied with
  | expressions => exact h.accept rfl ((List.append_nil _).symm ▸ h.enums)
  | @index table t i columns ht hfound =>
    refine ⟨?_, (Catalog.replaces_modifyTable ht _).forall
      (fun u hu => (h.tables u hu).mono hsub) id⟩
    rw [List.flatMap_append, List.flatMap_singleton]
    exact (List.append_nil _).symm ▸ h.enums
  | @alter table t actions s ht hs =>
    obtain ⟨hcolumns, henums⟩ := Staged.columns_of_actions hs
    refine ⟨?_, ?_⟩
    · rw [List.flatMap_append, List.flatMap_singleton]
      have hmodified : (d.catalog.modifyTable table fun _ => s.table).ListsFirst
          (accepted.flatMap (·.allEnums)) := h.enums.congr rfl
      -- the actions start with no enumerations
      rw [List.nil_append] at henums
      dsimp only
      rw [henums]
      exact hmodified.addEnums _
    · dsimp only
      rw [Catalog.tables_addEnums]
      refine (Catalog.replaces_modifyTable ht fun _ => s.table).forall
        (fun u hu => (h.tables u hu).mono hsub) fun htraced => ?_
      refine .of_signatures (Staged.keeps_of_actions hs).1 ?_
      rw [hcolumns]
      -- the columns are the old ones and those that are added
      refine List.forall_mem_append.2 ⟨List.forall_mem_map.2 htraced, List.forall_mem_map.2 ?_⟩
      intro added hadded
      obtain ⟨a, ha, hcolumn⟩ := List.mem_filterMap.1 hadded
      obtain rfl : a = .addColumn added := by
        cases a <;> cases hcolumn
        rfl
      refine Table.Traced.stems_of_declaredIn hmem
        (List.mem_append_right _ (List.mem_singleton_self _)) hparse (fun e he => ?_)
        (Catalog.mem_of_table? ht).2 (Sql.Parser.declares_of_alter hparse ha)
      exact List.mem_filterMap.2 ⟨added, hadded, Option.mem_toList.1 he⟩

/-- Changes trace the columns that they add. -/
theorem applyChanges (h : d.Traces dialect statements accepted)
    {changes : List (Origin × TableChange)}
    (hchanges : ∀ c ∈ changes, ∃ tokens ∈ statements.map (·.2),
      Statement.parse dialect tokens = .ok (.change c.2)) :
    (d.applyChanges changes).Traces dialect statements (accepted ++ d.allApplied changes) := by
  induction changes generalizing d accepted with
  | nil => exact (List.append_nil accepted).symm ▸ h
  | cons c rest ih =>
    rw [List.forall_mem_cons] at hchanges
    obtain ⟨⟨tokens, hmem, hparse⟩, hrest⟩ := hchanges
    -- a change that is refused leaves the draft as it was
    have hfirst : (d.applyChange c.1 c.2).Traces dialect statements
        (accepted ++ d.applies c.2) := by
      unfold Draft.applyChange applies
      cases happly : CrudGen.TableChange.apply d.catalog c.2 with
      | error m => exact (List.append_nil accepted).symm ▸ ⟨h.enums, h.tables⟩
      | ok r => exact h.applied hmem hparse (TableChange.apply_cases happly)
    change ((d.applyChange c.1 c.2).applyChanges rest).Traces dialect statements
      (accepted ++ (_ ++ allApplied (d.applyChange c.1 c.2) rest))
    rw [← List.append_assoc]
    exact ih hfirst hrest

end Draft.Traces

/-- Once all changes are applied, columns and enumerations stem from what was accepted. -/
theorem traces_ofStatements (dialect : Dialect) (statements : List (Origin × List Token)) :
    let d := ({} : Draft).addAll dialect statements
    (d.applyChanges d.changes).Traces dialect statements
      (acceptedStatements dialect statements) := by
  intro d
  have hempty : Draft.Traces dialect statements {} [] := ⟨fun _ => rfl, nofun⟩
  refine (hempty.addAll (List.Subset.refl _)).applyChanges fun c hc => ?_
  -- each change that waits is that of a statement
  have hmem : c.2 ∈ d.changes.map (·.2) := List.mem_map_of_mem hc
  rw [Draft.changes_addAll] at hmem
  obtain ⟨s, hs, hchange⟩ := List.mem_filterMap.1 hmem
  obtain ⟨tokens, htokens, hparse⟩ := List.mem_filterMap.1 hs
  refine ⟨tokens, htokens, ?_⟩
  cases hread : Statement.parse dialect tokens with
  | error e =>
    rw [hread] at hparse
    cases hparse
  | ok s' =>
    rw [hread] at hparse
    cases hparse
    cases s <;> cases hchange
    rfl

-- ---------------------------------------------------------------------------
-- The types of columns in the end
-- ---------------------------------------------------------------------------

/-- Layers of an array stay around what a type stands for. -/
theorem withEnums_arrayOf (names : List String) (k : Nat) (type : SqlType) :
    (arrayOf k type).withEnums names = arrayOf k (type.withEnums names) := by
  induction k generalizing type with
  | zero => rfl
  | succ k ih => exact ih (.array type)

/-- Following references touches neither columns nor enumerations. -/
theorem follow_keeps (x : Extraction) (refs : List (String × PendingForeignKey)) :
    (Draft.followAll x refs).catalog.enums = x.catalog.enums ∧
      (Draft.followAll x refs).catalog.tables.map (fun t => (t.name, t.columns)) =
        x.catalog.tables.map fun t => (t.name, t.columns) := by
  induction refs generalizing x with
  | nil => exact ⟨rfl, rfl⟩
  | cons ref rest ih =>
    have hfirst : (Draft.follow x ref.1 ref.2).catalog.enums = x.catalog.enums ∧
        (Draft.follow x ref.1 ref.2).catalog.tables.map (fun t => (t.name, t.columns)) =
          x.catalog.tables.map fun t => (t.name, t.columns) := by
      unfold Draft.follow
      split
      · refine ⟨rfl, ?_⟩
        dsimp only [Catalog.modifyTable]
        rw [map_modifyFirst]
        exact fun _ => rfl
      · exact ⟨rfl, rfl⟩
    obtain ⟨henums, htables⟩ := ih (Draft.follow x ref.1 ref.2)
    exact ⟨henums.trans hfirst.1, htables.trans hfirst.2⟩

/-- **Columns.** Every column that statements make stems from an accepted one, and its type is what
is written there, where a name that an enumeration has stands for it. -/
theorem stems_ofStatements (dialect : Dialect) (statements : List (Origin × List Token)) :
    let x := Extraction.ofStatements dialect statements
    x.catalog.ListsFirst (acceptedEnums dialect statements) ∧
      ∀ t ∈ x.catalog.tables, ∀ c ∈ t.columns, ∃ table w,
        StemsFrom dialect statements (acceptedStatements dialect statements) t.name c.name table w ∧
          c.declaredType = w.text ∧ c.dataType =
            (w.meaning dialect table c.name).dataType.withEnums (x.catalog.enums.map (·.name)) := by
  intro x
  let d := ({} : Draft).addAll dialect statements
  let applied := d.applyChanges d.changes
  have htraces : applied.Traces dialect statements (acceptedStatements dialect statements) :=
    traces_ofStatements dialect statements
  -- following references changes no column, so the types are those of the draft
  obtain ⟨henums, htables⟩ := follow_keeps
    { catalog := applied.catalog.withEnumColumns, errors := applied.errors } applied.pending
  change x.catalog.enums = applied.catalog.enums at henums
  change x.catalog.tables.map (fun t => (t.name, t.columns)) = _ at htables
  refine ⟨htraces.enums.congr henums, fun t ht c hc => ?_⟩
  obtain ⟨typed, htyped, heq⟩ := List.mem_map.1
    (htables ▸ List.mem_map_of_mem (f := fun t : Table => (t.name, t.columns)) ht)
  obtain ⟨u, hu, rfl⟩ := List.mem_map.1 htyped
  obtain ⟨hname, hcolumns⟩ := Prod.mk.inj heq
  obtain ⟨old, hold, rfl⟩ := List.mem_map.1 (hcolumns ▸ hc)
  obtain ⟨table, w, hstems, hsignature⟩ := htraces.tables u hu old hold
  refine ⟨table, w, hname ▸ hstems, congrArg (·.2.1) hsignature, ?_⟩
  rw [henums]
  exact congrArg (SqlType.withEnums _) (congrArg (·.2.2) hsignature)

/-- **Inline enumerations.** In whatever dialect, every column of a script stems from an accepted
statement. Where the type written there is a list of labels, the column has the enumeration that is
named after its table and itself, inside one array for each suffix. The catalog has it with the
labels of the first accepted declaration of that name, so with the labels of the column unless
another declaration of that name has others. -/
theorem inlineEnums_first (script : String) (dialect : Dialect) :
    let x := Extraction.ofScript script dialect
    let declared := acceptedEnums (dialect.resolve script) (originsOf script)
    ∀ t ∈ x.catalog.tables, ∀ c ∈ t.columns, ∃ table w,
      StemsFrom (dialect.resolve script) (originsOf script)
          (acceptedStatements (dialect.resolve script) (originsOf script)) t.name c.name table w ∧
        c.declaredType = w.text ∧
        (w.IsEnumeration → ∃ e ∈ x.catalog.enums, e.name = table ++ "_" ++ c.name ∧
          c.dataType = arrayOf w.arrays (.enum e.name) ∧
          declared.find? (·.name == e.name) = some e ∧
          ((∀ other ∈ declared, other.name = e.name → other.labels = w.labels) →
            e.labels = w.labels)) := by
  intro x declared t ht c hc
  obtain ⟨hfirst, hstems⟩ := stems_ofStatements (dialect.resolve script) (originsOf script)
  obtain ⟨table, w, hw, hwritten, htype⟩ := hstems t ht c hc
  refine ⟨table, w, hw, hwritten, fun hlabels => ?_⟩
  have hinline := hlabels.inlineEnum? table c.name
  obtain ⟨e, he, hname, hfound⟩ := Catalog.ListsFirst.mem hfirst (hw.asked _ hinline)
  -- the first enumeration of that name is the one the catalog keeps
  rw [← hname] at hfound
  refine ⟨e, he, hname, ?_, hfound, fun hsame => hsame e (List.mem_of_find?_eq_some hfound) rfl⟩
  rw [htype, hlabels.dataType, withEnums_arrayOf, hname]
  rfl

/-- Labels with an array suffix, as the type of a column that is added later. -/
theorem inlineEnums_first_of_added_column :
    let script := "CREATE TABLE t (i INT); ALTER TABLE t ADD COLUMN c SET('x', 'y')[]"
    let declared := acceptedEnums .generic (originsOf script)
    let i : Column := { name := "i", declaredType := "INT", dataType := .integer }
    let c : Column :=
      { name := "c", declaredType := "SET('x','y')[]", dataType := .array (.enum "t_c") }
    let t : Table := { name := "t", columns := [i, c] }
    t ∈ (Extraction.ofScript script .generic).catalog.tables ∧ c ∈ t.columns ∧
      ∃ table w, StemsFrom .generic (originsOf script)
          (acceptedStatements .generic (originsOf script)) t.name c.name table w ∧
        c.declaredType = w.text ∧
        (w.IsEnumeration → ∃ e ∈ (Extraction.ofScript script .generic).catalog.enums,
          e.name = table ++ "_" ++ c.name ∧ c.dataType = arrayOf w.arrays (.enum e.name) ∧
          declared.find? (·.name == e.name) = some e ∧
          ((∀ other ∈ declared, other.name = e.name → other.labels = w.labels) →
            e.labels = w.labels)) := by
  intro script declared i c t
  have ht : t ∈ (Extraction.ofScript script .generic).catalog.tables := by
    rw [Extraction.ofScript_of_toList String.toList_ofList]
    decide +kernel
  have hc : c ∈ t.columns := List.mem_cons_of_mem i (List.mem_singleton_self c)
  exact ⟨ht, hc, inlineEnums_first script .generic t ht c hc⟩

/-- Two columns whose tables and names join to one name share the enumeration of the first. -/
theorem inlineEnums_share_name :
    ∃ script dialect, ∃ t ∈ (Extraction.ofScript script dialect).catalog.tables, ∃ c ∈ t.columns,
      ∃ w, StemsFrom (dialect.resolve script) (originsOf script)
          (acceptedStatements (dialect.resolve script) (originsOf script)) t.name c.name t.name w ∧
        c.declaredType = w.text ∧ w.IsEnumeration ∧
        ∀ e ∈ (Extraction.ofScript script dialect).catalog.enums, e.labels ≠ w.labels := by
  let script := "CREATE TABLE a (b_c ENUM('x')); CREATE TABLE a_b (c ENUM('y'))"
  let c : Column := { name := "c", declaredType := "ENUM('y')", dataType := .enum "a_b_c" }
  let t : Table := { name := "a_b", columns := [c] }
  let w := Sql.Parser.labelledType "ENUM" ["y"] 0
  let s : Statement := .createTable
    { table := t, foreignKeys := [], inlineEnums := [{ name := "a_b_c", labels := ["y"] }],
      ifNotExists := false }
  let type : List Token := [.ident "ENUM", .lparen, .str "y", .rparen, .rparen]
  let table : List Token := .ident "a_b" :: .lparen :: .ident "c" :: type
  -- the second table has the first one's name and column in its own name
  let first : List Token := [.keyword .create, .keyword .table, .ident "a", .lparen, .ident "b_c",
    .ident "ENUM", .lparen, .str "x", .rparen, .rparen]
  have horigins : originsOf script = [(⟨1, "CREATE TABLE a (b_c ENUM('x'))"⟩, first),
      (⟨2, "CREATE TABLE a_b (c ENUM('y'))"⟩, .keyword .create :: .keyword .table :: table)] := by
    rw [originsOf_of_toList String.toList_ofList]
    decide +kernel
  have hdeclares : Declares .generic (.keyword .create :: .keyword .table :: table)
      "a_b" "c" w := by
    have hmodifiers : Sql.Parser.modifiers (.keyword .table :: table) =
        .ok ((), .keyword .table :: table) := by decide +kernel
    have hif : Sql.Parser.skipIfExists table = .ok (false, table) := by decide +kernel
    have htable : Sql.Parser.qualifiedName "table name" table =
        .ok ("a_b", .lparen :: .ident "c" :: type) := by decide +kernel
    have htype : Sql.Parser.writtenType "c" type = .ok (w, [.rparen]) :=
      Sql.Parser.writtenType_labels "c" "ENUM" ["y"] 0 nofun nofun rfl
    exact .element hmodifiers hif htable (.refl _ _) (by decide +kernel) ⟨type, _, rfl, htype⟩
  have hstems : StemsFrom .generic (originsOf script)
      (acceptedStatements .generic (originsOf script)) "a_b" "c" "a_b" w := by
    rw [horigins]
    exact ⟨sameName_self _,
      ⟨_, List.mem_cons_of_mem _ List.mem_cons_self, s, by decide +kernel, by decide +kernel,
        hdeclares⟩, by decide +kernel⟩
  have hread : Extraction.ofScript script .generic =
      .ofStatements .generic (originsOf script) := rfl
  rw [horigins] at hread
  have ht : t ∈ (Extraction.ofScript script .generic).catalog.tables := by
    rw [hread]
    decide +kernel
  refine ⟨script, .generic, t, ht, c, List.mem_singleton_self c, w, hstems, ?_, ?_, ?_⟩
  · decide +kernel
  · exact ⟨.inl (by decide +kernel), List.cons_ne_nil _ _⟩
  · rw [hread]
    decide +kernel

end CrudGen
