import CrudGen.Proofs.Catalog.Referential
import CrudGen.Proofs.Sql.ReferringStatements
import Mathlib.Logic.Relation

/-!
# Catalogs — the spelling of references

Whatever a statement refers to is looked up without regard to the case of ASCII letters, and what is
found is kept in the spelling of its declaration. Statements with the same folded form therefore do
the same to a catalog, and fail together.

Main results:

* `ofStatements_folded` — statements with the same folded forms are read into the same catalog.
* `ofStatements_respelled` — references may be spelled in any case.
-/

namespace CrudGen

open Text (foldAscii sameName)
open Sql (AlterAction Dialect PendingForeignKey Statement TableChange TableDefinition Token foldNames)

-- ---------------------------------------------------------------------------
-- Lookups
-- ---------------------------------------------------------------------------

/-- Two spellings of a name are the same as the same names. -/
theorem sameName_folded {a b b' : String} (h : foldAscii b = foldAscii b') :
    sameName a b = sameName a b' := by
  rw [sameName, sameName, h]

/-- A table is found under each spelling of its name. -/
theorem Catalog.table?_folded (c : Catalog) {name name' : String}
    (h : foldAscii name = foldAscii name') : c.table? name = c.table? name' := by
  rw [table?, table?]
  exact congrArg (c.tables.find? ·) (funext fun t => sameName_folded h)

/-- A table is changed under each spelling of its name. -/
theorem Catalog.modifyTable_folded (c : Catalog) {name name' : String}
    (h : foldAscii name = foldAscii name') (f : Table → Table) :
    c.modifyTable name f = c.modifyTable name' f := by
  rw [modifyTable, modifyTable]
  exact congrArg (fun p => { c with tables := modifyFirst p f c.tables })
    (funext fun t => sameName_folded h)

/-- Columns are asked for in each spelling, and the error may differ in nothing but that. -/
theorem Table.requireColumns_folded (t : Table) {names names' : List String}
    (h : foldNames names = foldNames names') (context : String) :
    (t.requireColumns names context).toOption = (t.requireColumns names' context).toOption := by
  rw [requireColumns, requireColumns, toOption_mapError, toOption_mapError,
    t.declaredColumns_folded h]

/-- A reference that waits, with its target in lower case. -/
def foldRef (ref : String × PendingForeignKey) : String × PendingForeignKey :=
  (ref.1, ref.2.folded)

-- ---------------------------------------------------------------------------
-- Changes
-- ---------------------------------------------------------------------------

/-- A staged table with the targets of its references in lower case. -/
def Staged.folded (s : Staged) : Staged :=
  { s with foreignKeys := s.foreignKeys.map (·.folded) }

/-- An action and the same one in another spelling change a table in the same way, or are both
refused. -/
theorem Staged.act_folded {s s' : Staged} {a a' : AlterAction} (hs : s.folded = s'.folded)
    (ha : a.folded = a'.folded) :
    (s.act a).toOption.map folded = (s'.act a').toOption.map folded := by
  obtain ⟨t, fks, enums⟩ := s
  obtain ⟨t', fks', enums'⟩ := s'
  obtain ⟨rfl, hfks, rfl⟩ := Staged.mk.inj hs
  -- references differ in spelling only, whatever is done to the table
  have hother (u : Table) : folded ⟨u, fks, enums⟩ = folded ⟨u, fks', enums⟩ :=
    congrArg (fun fks => Staged.mk u fks enums) hfks
  -- two actions that look the same are made alike; the columns they name are found alike
  cases a <;> cases a' <;> simp only [AlterAction.folded, reduceCtorEq] at ha
  case addColumn.addColumn d d' =>
    obtain ⟨column, fk, enum⟩ := d
    obtain ⟨column', fk', enum'⟩ := d'
    obtain ⟨rfl, hfk, rfl⟩ := Sql.ColumnDefinition.mk.inj (AlterAction.addColumn.inj ha)
    simp only [act]
    split
    · rfl
    · refine congrArg some ?_
      simp only [folded, List.map_append, hfks, ← Option.toList_map, hfk]
  case addForeignKey.addForeignKey fk fk' =>
    have hfk := AlterAction.addForeignKey.inj ha
    have hcolumns : foldNames fk.columns = foldNames fk'.columns := congrArg (·.columns) hfk
    refine toOption_bind_congr (t.requireColumns_folded hcolumns _) fun found => congrArg some ?_
    have hadded : PendingForeignKey.folded { fk with columns := found } =
        PendingForeignKey.folded { fk' with columns := found } :=
      congrArg (fun fk => { fk with columns := found }) hfk
    simp only [folded, List.map_append, hfks, List.map_singleton, hadded]
  case addUnique.addUnique u u' =>
    obtain ⟨hname, hcolumns⟩ := UniqueConstraint.mk.inj (AlterAction.addUnique.inj ha)
    refine toOption_bind_congr (t.requireColumns_folded hcolumns _) fun found => ?_
    rw [hname]
    exact congrArg some (hother _)
  case addPrimaryKey.addPrimaryKey columns columns' =>
    have hcolumns := AlterAction.addPrimaryKey.inj ha
    refine toOption_bind_congr (t.requireColumns_folded hcolumns _) fun found => ?_
    dsimp only
    split
    · rfl
    · exact congrArg some (hother _)
  case addIndex.addIndex i i' =>
    obtain ⟨hname, hcolumns, hunique⟩ := Index.mk.inj (AlterAction.addIndex.inj ha)
    refine toOption_bind_congr (t.requireColumns_folded hcolumns _) fun found => ?_
    rw [hname, hunique]
    exact congrArg some (hother _)
  case setDefault.setDefault column expression column' expression' =>
    obtain ⟨hcolumn, rfl⟩ := AlterAction.setDefault.inj ha
    -- the default goes to the same column, found under either spelling
    have hsame : (fun c : Column => sameName c.name column) = fun c => sameName c.name column' :=
      funext fun c => sameName_folded hcolumn
    simp only [act, Table.hasColumn, t.column?_folded hcolumn, hsame]
    by_cases hfound : (t.column? column').isSome = true
    · simp only [hfound, Bool.not_true, Bool.false_eq_true, if_false]
      exact congrArg some (hother _)
    · simp only [hfound, Bool.not_false, if_true]
      rfl

/-- What a change does to a catalog, with the references that it adds in lower case. -/
def foldedChange (r : Catalog × List (String × PendingForeignKey)) :
    Catalog × List (String × PendingForeignKey) :=
  (r.1, r.2.map foldRef)

theorem apply_folded (c : Catalog) {change change' : TableChange}
    (h : change.folded = change'.folded) :
    (TableChange.apply c change).toOption.map foldedChange =
      (TableChange.apply c change').toOption.map foldedChange := by
  -- a change of an index and one of a table never look the same
  cases change <;> cases change' <;> simp only [TableChange.folded, reduceCtorEq] at h
  case index.index table i? table' i?' =>
    obtain ⟨htable, hi⟩ := TableChange.index.inj h
    simp only [TableChange.apply, c.table?_folded htable]
    cases c.table? table' with
    | none => rfl
    | some t =>
      cases i? with
      | none =>
        obtain rfl : i?' = none := Option.map_eq_none_iff.1 hi.symm
        rfl
      | some i =>
        obtain ⟨i', rfl, hi'⟩ := Option.map_eq_some_iff.1 hi.symm
        obtain ⟨hname, hcolumns, hunique⟩ := Index.mk.inj hi'
        refine toOption_bind_congr (t.requireColumns_folded hcolumns.symm _) fun found => ?_
        rw [c.modifyTable_folded htable, hname, hunique]
  case alter.alter table actions table' actions' =>
    obtain ⟨htable, hactions⟩ := TableChange.alter.inj h
    simp only [TableChange.apply, c.table?_folded htable]
    cases c.table? table' with
    | none => rfl
    | some t =>
      -- the actions start at the same table, and stop at the same one or not at all
      refine toOption_bind_view (v := Staged.folded)
        (foldlM_toOption_view Staged.act_folded hactions rfl) fun s s' hs => ?_
      obtain ⟨u, fks, enums⟩ := s
      obtain ⟨u', fks', enums'⟩ := s'
      obtain ⟨rfl, hfks, rfl⟩ := Staged.mk.inj hs
      refine congrArg some (Prod.ext ?_ ?_)
      · exact congrArg (List.foldl Catalog.addEnum · enums)
          (c.modifyTable_folded htable fun _ => u)
      · have hrefs := congrArg (List.map fun fk => (u.name, fk)) hfks
        rw [List.map_map, List.map_map] at hrefs
        simpa [foldedChange, foldRef, Function.comp_def] using hrefs

-- ---------------------------------------------------------------------------
-- Both passes
-- ---------------------------------------------------------------------------

/-- Drafts with the same catalog, that note errors of the same statements and differ in the spelling
of references only. -/
structure Draft.SameFolded (d d' : Draft) : Prop where
  catalog : d.catalog = d'.catalog
  errors  : d.errors.map (·.statement) = d'.errors.map (·.statement)
  pending : d.pending.map foldRef = d'.pending.map foldRef
  changes : d.changes.map (fun c => (c.1.number, c.2.folded)) =
              d'.changes.map fun c => (c.1.number, c.2.folded)

namespace Draft.SameFolded

variable {d d' : Draft} {o o' : Origin}

theorem refl (d : Draft) : d.SameFolded d :=
  ⟨rfl, rfl, rfl, rfl⟩

/-- An error is noted under the same number, whatever it says. -/
theorem addError (h : d.SameFolded d') (ho : o.number = o'.number) (reason reason' : String) :
    (d.addError (o.error reason)).SameFolded (d'.addError (o'.error reason')) := by
  refine ⟨h.catalog, ?_, h.pending, h.changes⟩
  simp only [Draft.addError, List.map_append, h.errors, List.map_singleton, Origin.error, ho]

/-- A table is added to both drafts, or is refused in both. -/
theorem addTable (h : d.SameFolded d') (ho : o.number = o'.number) {t t' : TableDefinition}
    (ht : t.folded = t'.folded) : (d.addTable o t).SameFolded (d'.addTable o' t') := by
  obtain ⟨table, fks, enums, ifNotExists⟩ := t
  obtain ⟨table', fks', enums', ifNotExists'⟩ := t'
  obtain ⟨rfl, hfks, rfl, rfl⟩ := TableDefinition.mk.inj ht
  simp only [Draft.addTable, ← h.catalog]
  split
  · split
    · exact h
    · exact h.addError ho _ _
  · refine ⟨rfl, h.errors, ?_, h.changes⟩
    have hrefs := congrArg (List.map fun fk => (table.name, fk)) hfks
    rw [List.map_map, List.map_map] at hrefs
    simpa [h.pending, foldRef, Function.comp_def] using hrefs

theorem add (h : d.SameFolded d') (ho : o.number = o'.number) {s s' : Statement}
    (hs : s.folded = s'.folded) : (d.add o s).SameFolded (d'.add o' s') := by
  cases s <;> cases s' <;> simp only [Statement.folded, reduceCtorEq] at hs
  case createTable.createTable t t' => exact h.addTable ho (Statement.createTable.inj hs)
  case change.change c c' =>
    have hc := Statement.change.inj hs
    refine ⟨h.catalog, h.errors, h.pending, ?_⟩
    simp only [Draft.add, List.map_append, h.changes, List.map_singleton, ho, hc]
  case createSequence.createSequence q q' =>
    obtain rfl := Statement.createSequence.inj hs
    exact ⟨congrArg (·.addSequence q) h.catalog, h.errors, h.pending, h.changes⟩
  case createEnum.createEnum e e' =>
    obtain rfl := Statement.createEnum.inj hs
    exact ⟨congrArg (·.addEnum e) h.catalog, h.errors, h.pending, h.changes⟩
  case skipped.skipped => exact h

/-- Tokens of the same statement are added to both drafts, or are an error in both. -/
theorem addTokens {dialect : Dialect} (h : d.SameFolded d') (ho : o.number = o'.number)
    {ts ts' : List Token} (hparse : (Statement.parse dialect ts).toOption.map Statement.folded =
      (Statement.parse dialect ts').toOption.map Statement.folded) :
    (d.addTokens dialect o ts).SameFolded (d'.addTokens dialect o' ts') := by
  unfold Draft.addTokens
  generalize Statement.parse dialect ts = x at hparse
  generalize Statement.parse dialect ts' = y at hparse
  cases x with
  | error e =>
    cases y with
    | error e' => exact h.addError ho _ _
    | ok s' => cases hparse
  | ok s =>
    cases y with
    | error e' => cases hparse
    | ok s' => exact h.add ho (Option.some.inj hparse)

/-- A change is made in both drafts, or is an error in both. -/
theorem applyChange (h : d.SameFolded d') (ho : o.number = o'.number) {c c' : TableChange}
    (hc : c.folded = c'.folded) : (d.applyChange o c).SameFolded (d'.applyChange o' c') := by
  have happly := apply_folded d.catalog hc
  unfold Draft.applyChange
  rw [← h.catalog]
  generalize TableChange.apply d.catalog c = x at happly
  generalize TableChange.apply d.catalog c' = y at happly
  cases x with
  | error e =>
    cases y with
    | error e' => exact h.addError ho _ _
    | ok r' => cases happly
  | ok r =>
    cases y with
    | error e' => cases happly
    | ok r' =>
      obtain ⟨hcatalog, hrefs⟩ := Prod.mk.inj (Option.some.inj happly)
      refine ⟨hcatalog, h.errors, ?_, h.changes⟩
      simp only [List.map_append, h.pending, hrefs]

theorem applyChanges (h : d.SameFolded d') {cs cs' : List (Origin × TableChange)}
    (hcs : cs.map (fun c => (c.1.number, c.2.folded)) =
      cs'.map fun c => (c.1.number, c.2.folded)) :
    (d.applyChanges cs).SameFolded (d'.applyChanges cs') := by
  induction cs generalizing d d' cs' with
  | nil =>
    obtain rfl : cs' = [] := List.map_eq_nil_iff.1 hcs.symm
    exact h
  | cons c rest ih =>
    obtain ⟨c', rest', rfl, hc, hrest⟩ := List.map_eq_cons_iff.1 hcs.symm
    obtain ⟨hnumber, hfolded⟩ := Prod.mk.inj hc
    exact ih (h.applyChange hnumber.symm hfolded.symm) hrest.symm

end Draft.SameFolded

-- ---------------------------------------------------------------------------
-- References that are followed
-- ---------------------------------------------------------------------------

/-- A reference is resolved in each spelling of its table and columns, or in none. -/
theorem resolve_folded (c : Catalog) {fk fk' : PendingForeignKey} (h : fk.folded = fk'.folded) :
    (PendingForeignKey.resolve c fk).toOption = (PendingForeignKey.resolve c fk').toOption := by
  obtain ⟨name, columns, target, targetColumns, onDelete, onUpdate⟩ := fk
  obtain ⟨name', columns', target', targetColumns', onDelete', onUpdate'⟩ := fk'
  obtain ⟨rfl, rfl, htarget, hcolumns, rfl, rfl⟩ := PendingForeignKey.mk.inj h
  simp only [PendingForeignKey.resolve, c.table?_folded htarget]
  cases c.table? target' with
  | none => rfl
  | some t =>
    have hwanted : foldNames (targetColumns.getD t.primaryKey) =
        foldNames (targetColumns'.getD t.primaryKey) := by
      have hdefault (names? : Option (List String)) : foldNames (names?.getD t.primaryKey) =
          (names?.map foldNames).getD (foldNames t.primaryKey) := by
        cases names? <;> rfl
      rw [hdefault, hdefault]
      exact congrArg (Option.getD · _) hcolumns
    -- the columns that are wanted may be spelled differently, but are as many
    dsimp only
    generalize targetColumns.getD t.primaryKey = wanted at hwanted
    generalize targetColumns'.getD t.primaryKey = wanted' at hwanted
    have hempty : wanted.isEmpty = wanted'.isEmpty := by
      have hsame := congrArg List.isEmpty hwanted
      rwa [foldNames, foldNames, List.isEmpty_map, List.isEmpty_map] at hsame
    have hlength : wanted.length = wanted'.length := by
      have hsame := congrArg List.length hwanted
      rwa [foldNames, foldNames, List.length_map, List.length_map] at hsame
    rw [hempty, hlength]
    split
    · rfl
    · split
      · rfl
      · have hfound := t.declaredColumns_folded hwanted
        generalize t.declaredColumns wanted = x at hfound
        generalize t.declaredColumns wanted' = y at hfound
        cases x <;> cases y <;> cases hfound <;> rfl

/-- Extractions with the same catalog, and with errors of the same statements and reports of the
same tables in the same order. -/
structure Extraction.Same (x x' : Extraction) : Prop where
  catalog    : x.catalog = x'.catalog
  errors     : x.errors.map (·.statement) = x'.errors.map (·.statement)
  unresolved : x.unresolved.map (·.table) = x'.unresolved.map (·.table)

/-- A reference that is followed in two spellings leads to the same foreign key, or is unresolved in
both. -/
theorem Extraction.Same.follow {x x' : Extraction} (h : x.Same x') (table : String)
    {fk fk' : PendingForeignKey} (hfk : fk.folded = fk'.folded) :
    (Draft.follow x table fk).Same (Draft.follow x' table fk') := by
  have hresolve := resolve_folded x.catalog hfk
  unfold Draft.follow
  rw [← h.catalog]
  generalize PendingForeignKey.resolve x.catalog fk = r at hresolve
  generalize PendingForeignKey.resolve x.catalog fk' = r' at hresolve
  -- a reference is followed on both sides or dropped on both
  cases r with
  | error e =>
    cases r' with
    | error e' =>
      refine ⟨rfl, h.errors, ?_⟩
      simp only [List.map_append, h.unresolved, List.map_singleton]
    | ok fk' => cases hresolve
  | ok fk =>
    cases r' with
    | error e' => cases hresolve
    | ok fk' =>
      obtain rfl := Option.some.inj hresolve
      exact ⟨rfl, h.errors, h.unresolved⟩

theorem Extraction.Same.followAll {refs refs' : List (String × PendingForeignKey)}
    (hrefs : refs.map foldRef = refs'.map foldRef) {x x' : Extraction} (h : x.Same x') :
    (Draft.followAll x refs).Same (Draft.followAll x' refs') := by
  induction refs generalizing refs' x x' with
  | nil =>
    obtain rfl : refs' = [] := List.map_eq_nil_iff.1 hrefs.symm
    exact h
  | cons ref rest ih =>
    obtain ⟨⟨table', fk'⟩, rest', rfl, href, hrest⟩ := List.map_eq_cons_iff.1 hrefs.symm
    obtain ⟨rfl, hfk⟩ := Prod.mk.inj href
    exact ih hrest.symm (h.follow ref.1 hfk.symm)

-- ---------------------------------------------------------------------------
-- Statements
-- ---------------------------------------------------------------------------

/-- Statements of the same numbers that say the same but for the spelling of references, or fail
together. -/
def SameStatements (dialect : Dialect) (ss ss' : List (Origin × List Token)) : Prop :=
  List.Forall₂ (fun s s' => s.1.number = s'.1.number ∧
    (Statement.parse dialect s.2).toOption.map Statement.folded =
      (Statement.parse dialect s'.2).toOption.map Statement.folded) ss ss'

/-- Scripts of the same statements make the same draft. -/
theorem Draft.SameFolded.addAll {dialect : Dialect} {ss ss' : List (Origin × List Token)}
    (hss : SameStatements dialect ss ss') {d d' : Draft} (h : d.SameFolded d') :
    (d.addAll dialect ss).SameFolded (d'.addAll dialect ss') := by
  induction hss generalizing d d' with
  | nil => exact h
  | cons hs _ ih => exact ih (h.addTokens hs.1 hs.2)

/-- Statements that say the same but for the spelling of references are read into the same
catalog. -/
theorem ofStatements_folded {dialect : Dialect} {ss ss' : List (Origin × List Token)}
    (h : SameStatements dialect ss ss') :
    (Extraction.ofStatements dialect ss).Same (Extraction.ofStatements dialect ss') := by
  have hd := (Draft.SameFolded.refl {}).addAll h
  have hchanged := hd.applyChanges hd.changes
  exact .followAll hchanged.pending
    ⟨congrArg Catalog.withEnumColumns hchanged.catalog, hchanged.errors, rfl⟩

/-- One identifier that a statement reads as a reference is replaced by another spelling of it. The
excerpt of the statement may change with it. -/
inductive RespelledOnce (dialect : Dialect) :
    List (Origin × List Token) → List (Origin × List Token) → Prop
  | reference {before after : List (Origin × List Token)} {o o' : Origin} {pre rest : List Token}
      {n n' : String} (hnumber : o.number = o'.number) (hname : sameName n n' = true)
      (h : Sql.Parser.StatementAt dialect (pre ++ .ident n :: rest) (.ident n :: rest)) :
      RespelledOnce dialect (before ++ (o, pre ++ .ident n :: rest) :: after)
        (before ++ (o', pre ++ .ident n' :: rest) :: after)

/-- Identifiers that are read as references are replaced by other spellings, one after another. -/
def Respelled (dialect : Dialect) :
    List (Origin × List Token) → List (Origin × List Token) → Prop :=
  Relation.ReflTransGen (RespelledOnce dialect)

/-- A script with one name spelled differently is one of the same statements. -/
theorem RespelledOnce.sameStatements {dialect : Dialect} {ss ss' : List (Origin × List Token)}
    (h : RespelledOnce dialect ss ss') : SameStatements dialect ss ss' := by
  cases h with
  | reference hnumber hname h =>
    obtain ⟨before, hts, hparse⟩ := Statement.parse_respelled h hname
    obtain rfl := List.append_cancel_right hts
    have hsame (ss : List (Origin × List Token)) : SameStatements dialect ss ss :=
      List.forall₂_same.2 fun _ _ => ⟨rfl, rfl⟩
    exact List.rel_append (hsame _) (.cons ⟨hnumber, hparse⟩ (hsame _))

/-- **Spelling.** However the references of statements are spelled, they are read into the same
catalog, with errors of the same statements and unresolved references of the same tables in the same
order. In the catalog everything is named as it is declared. -/
theorem ofStatements_respelled {dialect : Dialect} {ss ss' : List (Origin × List Token)}
    (h : Respelled dialect ss ss') :
    (Extraction.ofStatements dialect ss).Same (Extraction.ofStatements dialect ss') ∧
      (Extraction.ofStatements dialect ss').catalog.Referential := by
  refine ⟨?_, referential_ofStatements dialect ss'⟩
  induction h with
  | refl => exact ⟨rfl, rfl, rfl⟩
  | tail _ hstep ih =>
    have hnext := ofStatements_folded hstep.sameStatements
    exact ⟨ih.catalog.trans hnext.catalog, ih.errors.trans hnext.errors,
      ih.unresolved.trans hnext.unresolved⟩

/-- The table of a change is found under another spelling. -/
theorem ofStatements_respelled_table :
    let ss := originsOf "CREATE TABLE t (a INT); ALTER TABLE t ADD UNIQUE (A)"
    let ss' := originsOf "CREATE TABLE t (a INT); ALTER TABLE T ADD UNIQUE (A)"
    Respelled .generic ss ss' ∧
      (Extraction.ofStatements .generic ss).Same (Extraction.ofStatements .generic ss') ∧
        (Extraction.ofStatements .generic ss').catalog.Referential := by
  intro ss ss'
  have hss : ss = [
      ({ number := 1, excerpt := "CREATE TABLE t (a INT)" },
        [.keyword .create, .keyword .table, .ident "t", .lparen, .ident "a", .ident "INT", .rparen]),
      ({ number := 2, excerpt := "ALTER TABLE t ADD UNIQUE (A)" },
        [.keyword .alter, .keyword .table, .ident "t", .keyword .add, .keyword .unique, .lparen,
          .ident "A", .rparen])] := by
    decide +kernel
  have hss' : ss' = [
      ({ number := 1, excerpt := "CREATE TABLE t (a INT)" },
        [.keyword .create, .keyword .table, .ident "t", .lparen, .ident "a", .ident "INT", .rparen]),
      ({ number := 2, excerpt := "ALTER TABLE T ADD UNIQUE (A)" },
        [.keyword .alter, .keyword .table, .ident "T", .keyword .add, .keyword .unique, .lparen,
          .ident "A", .rparen])] := by
    decide +kernel
  have hparse : (Statement.parse .generic [.keyword .alter, .keyword .table, .ident "t",
      .keyword .add, .keyword .unique, .lparen, .ident "A", .rparen]).toOption =
        some (.change (.alter "t" [.addUnique { name := none, columns := ["A"] }])) := by
    decide +kernel
  have hname : Text.sameName "t" "T" = true := by
    rw [Text.sameName, beq_iff_eq, Text.foldAscii, Text.foldAscii, ← String.toList_inj,
      String.toList_map, String.toList_map]
    decide
  have hat : Sql.Parser.StatementAt .generic
      ([.keyword .alter, .keyword .table] ++ [.ident "t", .keyword .add, .keyword .unique, .lparen,
        .ident "A", .rparen])
      [.ident "t", .keyword .add, .keyword .unique, .lparen, .ident "A", .rparen] := by
    refine .alter (.table rfl rfl (.last (by decide)) fun table actions h d hd => ?_)
    have hactions := (congrArg Except.toOption h).symm.trans hparse
    cases hactions
    cases hd with
    | tail _ hd => cases hd
  -- the statement refers to the table, which comes after `ALTER TABLE`
  have h : Respelled .generic ss ss' := by
    rw [hss, hss']
    exact .single
      (@RespelledOnce.reference .generic [_] [] _ _ [_, _] _ "t" "T" rfl hname hat)
  exact ⟨h, ofStatements_respelled h⟩
end CrudGen
