import CrudGen.Proofs.Catalog.Collected
import CrudGen.Proofs.Text.Lower

/-!
# Catalogs — what holds of every table, and primary keys

A table comes from a definition. Afterwards changes apply to it, its columns get their enumerations,
and references that are followed are stored in it. A property of single tables that definitions have
and that each of these steps keeps is a `TableInvariant`, and holds of every table of a script.

A table says twice what its primary key is: in a list of names and by a flag of each column, which
then cannot be null. A definition flags the columns that it lists and lists those that come flagged,
and a key that is added later is listed and flagged at once. A column that is added later with a key
clause of its own, however, keeps its flag and is not listed.

Main results:

* `TableInvariant.ofStatements` — the passes over statements lead to tables with the property.
* `primaryKey_agrees` — list and flags agree but for columns that are added with a key clause.
* `primaryKey_of_added_column_unlisted` — for such columns they need not agree.
-/

namespace CrudGen

open Text (sameName)
open Sql (AlterAction Dialect PendingForeignKey Statement TableChange TableDefinition Token)

-- ---------------------------------------------------------------------------
-- What holds of every table
-- ---------------------------------------------------------------------------

/-- A property that tables have as they are defined, and keep whatever is done to them. `changes`
are those that may apply. -/
structure TableInvariant (dialect : Dialect) (changes : List TableChange) (P : Table → Prop) :
    Prop where
  defined : ∀ {tokens : List Token} {t : TableDefinition},
              Statement.parse dialect tokens = .ok (.createTable t) → P t.table
  indexed : ∀ {t : Table} {i : Index} {columns : List String},
              t.declaredColumns i.columns = .ok columns → P t →
                P { t with indexes := t.indexes ++ [{ i with columns }] }
  acted   : ∀ {s s' : Staged} {a : AlterAction} {written : String} {actions : List AlterAction},
              .alter written actions ∈ changes → a ∈ actions →
                sameName s.table.name written = true → s.Act a s' → P s.table → P s'.table
  typed   : ∀ {t : Table} (names : List String), P t →
              P { t with columns := t.columns.map fun c =>
                  { c with dataType := c.dataType.withEnums names } }
  linked  : ∀ {t : Table} {c : Catalog} {ref : PendingForeignKey} {fk : ForeignKey},
              CrudGen.PendingForeignKey.resolve c ref = .ok fk → P t →
                P { t with foreignKeys := t.foreignKeys ++ [fk] }

namespace TableInvariant

variable {dialect : Dialect} {changes : List TableChange} {P : Table → Prop} {d : Draft}

theorem addTokens (h : TableInvariant dialect changes P) (hd : ∀ t ∈ d.catalog.tables, P t)
    (o : Origin) (tokens : List Token) :
    ∀ t ∈ (d.addTokens dialect o tokens).catalog.tables, P t := by
  unfold Draft.addTokens
  cases hparse : Statement.parse dialect tokens with
  | error e => exact hd
  | ok s =>
    cases s with
    | createTable t =>
      simp only [Draft.add, Draft.addTable]
      split
      · split <;> exact hd
      · dsimp only
        rw [Catalog.tables_addEnums]
        exact List.forall_mem_append.2 ⟨hd, List.forall_mem_singleton.2 (h.defined hparse)⟩
    | createSequence q => exact (Catalog.tables_addSequence d.catalog q).symm ▸ hd
    | createEnum e => exact (Catalog.tables_addEnum d.catalog e).symm ▸ hd
    | change c => exact hd
    | skipped => exact hd

theorem addAll (h : TableInvariant dialect changes P) (hd : ∀ t ∈ d.catalog.tables, P t)
    (statements : List (Origin × List Token)) :
    ∀ t ∈ (d.addAll dialect statements).catalog.tables, P t := by
  induction statements generalizing d with
  | nil => exact hd
  | cons s rest ih => exact ih (h.addTokens hd s.1 s.2)

/-- A change keeps the property, one action after the other. -/
theorem applied (h : TableInvariant dialect changes P) {c c' : Catalog} {change : TableChange}
    {refs : List (String × PendingForeignKey)} (happlied : change.Applied c (c', refs))
    (hmem : change ∈ changes) (hc : ∀ t ∈ c.tables, P t) : ∀ t ∈ c'.tables, P t := by
  cases happlied with
  | expressions => exact hc
  | @index table t i columns ht hfound =>
    exact (Catalog.replaces_modifyTable ht _).forall hc (h.indexed hfound)
  | @alter table t actions s ht hs =>
    rw [Catalog.tables_addEnums]
    refine (Catalog.replaces_modifyTable ht fun _ => s.table).forall hc fun hP => ?_
    -- the staged table keeps its name on the way, so the change is one of its table throughout
    have hstaged := foldlM_ok (I := fun s : Staged => s.table.name = t.name ∧ P s.table)
      (fun a ha s₁ s₂ hs₁ hact => ?_) ⟨rfl, hP⟩ hs
    · exact hstaged.2
    · have hact := Staged.act_cases hact
      have hname : sameName s₁.table.name table = true :=
        hs₁.1 ▸ (Catalog.mem_of_table? ht).2
      exact ⟨hact.keeps.1.trans hs₁.1, h.acted hmem ha hname hact hs₁.2⟩

theorem applyChanges (h : TableInvariant dialect changes P) (hd : ∀ t ∈ d.catalog.tables, P t)
    {cs : List (Origin × TableChange)} (hcs : ∀ c ∈ cs, c.2 ∈ changes) :
    ∀ t ∈ (d.applyChanges cs).catalog.tables, P t := by
  induction cs generalizing d with
  | nil => exact hd
  | cons c rest ih =>
    rw [List.forall_mem_cons] at hcs
    refine ih (d := d.applyChange c.1 c.2) ?_ hcs.2
    unfold Draft.applyChange
    cases happly : CrudGen.TableChange.apply d.catalog c.2 with
    | error m => exact hd
    | ok r => exact h.applied (TableChange.apply_cases happly) hcs.1 hd

theorem followAll (h : TableInvariant dialect changes P) {x : Extraction}
    (hx : ∀ t ∈ x.catalog.tables, P t) (refs : List (String × PendingForeignKey)) :
    ∀ t ∈ (Draft.followAll x refs).catalog.tables, P t := by
  induction refs generalizing x with
  | nil => exact hx
  | cons ref rest ih =>
    refine ih (x := Draft.follow x ref.1 ref.2) ?_
    unfold Draft.follow
    split
    · rename_i fk hfk
      exact forall_modifyFirst hx fun t => h.linked hfk
    · exact hx

/-- **Invariants of tables.** Every table of a catalog that is made of statements has a property
that definitions have and that is kept under the changes among the statements. -/
theorem ofStatements {statements : List (Origin × List Token)}
    (h : TableInvariant dialect (changesOf dialect statements) P) :
    ∀ t ∈ (Extraction.ofStatements dialect statements).catalog.tables, P t := by
  let d := ({} : Draft).addAll dialect statements
  have hd : ∀ t ∈ d.catalog.tables, P t :=
    h.addAll (fun t ht => absurd ht List.not_mem_nil) statements
  have hchanges : ∀ c ∈ d.changes, c.2 ∈ changesOf dialect statements := by
    intro c hc
    have hmem : c.2 ∈ d.changes.map (·.2) := List.mem_map_of_mem hc
    rwa [Draft.changes_addAll] at hmem
  refine h.followAll (fun t ht => ?_) _
  obtain ⟨u, hu, rfl⟩ := List.mem_map.1 ht
  exact h.typed _ (h.applyChanges hd hchanges u hu)

end TableInvariant

-- ---------------------------------------------------------------------------
-- Primary keys
-- ---------------------------------------------------------------------------

/-- What a column has to do with the primary key. -/
def Column.keyFacts (c : Column) : String × Bool × Bool :=
  (c.name, c.primaryKey, c.nullable)

/-- The primary key of a table names its columns, and the columns it names are flagged and not null.
A flagged column is one that it names, or one that `stray` holds of. -/
structure Table.Keyed (t : Table) (stray : String → Prop) : Prop where
  declared : ∀ n ∈ t.primaryKey, n ∈ t.columnNames
  listed   : ∀ c ∈ t.columns, c.name ∈ t.primaryKey → c.primaryKey = true ∧ c.nullable = false
  flagged  : ∀ c ∈ t.columns, c.primaryKey = true → c.name ∈ t.primaryKey ∨ stray c.name

namespace Table.Keyed

variable {t : Table} {stray stray' : String → Prop}

theorem mono (h : t.Keyed stray) (hstray : ∀ n, stray n → stray' n) : t.Keyed stray' :=
  { h with flagged := fun c hc hkey => (h.flagged c hc hkey).imp_right (hstray c.name) }

/-- Columns may change in anything but their names and what they have to do with the key. -/
theorem setColumns (h : t.Keyed stray) {columns : List Column}
    (hfacts : columns.map (·.keyFacts) = t.columns.map (·.keyFacts)) :
    ({ t with columns } : Table).Keyed stray := by
  -- each column is an old one as far as the key goes
  have hsame : ∀ c ∈ columns, ∃ old ∈ t.columns, old.name = c.name ∧
      old.primaryKey = c.primaryKey ∧ old.nullable = c.nullable := by
    intro c hc
    obtain ⟨old, hold, heq⟩ := List.mem_map.1 (hfacts ▸ List.mem_map_of_mem hc)
    simp only [Column.keyFacts, Prod.mk.injEq] at heq
    exact ⟨old, hold, heq⟩
  have hnames : columns.map (·.name) = t.columnNames := by
    have hfirst := congrArg (List.map Prod.fst) hfacts
    rw [List.map_map, List.map_map] at hfirst
    exact hfirst
  refine ⟨fun n hn => ?_, fun c hc hlisted => ?_, fun c hc hkey => ?_⟩
  · rw [columnNames_eq hnames]
    exact h.declared n hn
  · obtain ⟨old, hold, hname, hflag, hnull⟩ := hsame c hc
    rw [← hflag, ← hnull]
    exact h.listed old hold (hname ▸ hlisted)
  · obtain ⟨old, hold, hname, hflag, -⟩ := hsame c hc
    rw [← hname]
    exact h.flagged old hold (hflag.trans hkey)

/-- A new column is not listed, so if it comes flagged it has to be a stray one. -/
theorem addColumn (h : t.Keyed stray) {c : Column} (hnew : t.hasColumn c.name = false)
    (hc : c.primaryKey = true → stray c.name) :
    ({ t with columns := t.columns ++ [c] } : Table).Keyed stray := by
  refine ⟨fun n hn => ?_, ?_, ?_⟩
  · rw [columnNames, List.map_append]
    exact List.mem_append_left _ (h.declared n hn)
  · refine List.forall_mem_append.2 ⟨h.listed, List.forall_mem_singleton.2 fun hlisted => ?_⟩
    have hdiff := hasColumn_eq_false_iff.1 hnew c.name (h.declared _ hlisted)
    rw [sameName_self] at hdiff
    cases hdiff
  · refine List.forall_mem_append.2 ⟨h.flagged, List.forall_mem_singleton.2 fun hkey => ?_⟩
    exact .inr (hc hkey)

end Table.Keyed

/-- Once the columns of its key are marked, a table is keyed. Columns flagged before that are listed
or stray. -/
theorem Table.keyed_markPrimaryKey {t : Table} {stray : String → Prop}
    (hdeclared : ∀ n ∈ t.primaryKey, n ∈ t.columnNames)
    (hflagged : ∀ c ∈ t.columns, c.primaryKey = true → c.name ∈ t.primaryKey ∨ stray c.name) :
    (Sql.Parser.markPrimaryKey t).Keyed stray := by
  refine ⟨?_, fun c hc hlisted => ?_, fun c hc hkey => ?_⟩
  · rw [columnNames_markPrimaryKey]
    exact hdeclared
  all_goals
    obtain ⟨old, hold, rfl⟩ := List.mem_map.1 hc
    by_cases hmarked : t.primaryKey.contains old.name = true
  · rw [if_pos hmarked]
    exact ⟨rfl, rfl⟩
  · rw [if_neg hmarked] at hlisted
    exact absurd (List.contains_iff_mem.2 hlisted) hmarked
  · rw [if_pos hmarked]
    exact .inl (List.contains_iff_mem.1 hmarked)
  · rw [if_neg hmarked] at hkey ⊢
    exact hflagged old hold hkey

-- ---------------------------------------------------------------------------
-- Definitions
-- ---------------------------------------------------------------------------

namespace Sql.Parser

/-- A constraint keeps the flagged columns listed: it makes a list of its own only if there is none,
and then no column is flagged. -/
theorem listed_applyConstraint {s s' : Table × List PendingForeignKey} {c : TableConstraint}
    (h : ∀ c ∈ s.1.columns, c.primaryKey = true → c.name ∈ s.1.primaryKey)
    (hc : applyConstraint s c = .ok s') :
    ∀ c ∈ s'.1.columns, c.primaryKey = true → c.name ∈ s'.1.primaryKey := by
  obtain ⟨t, fks⟩ := s
  cases c with
  | primaryKey columns =>
    obtain ⟨found, -, hset⟩ := ok_of_bind hc
    dsimp only at hset
    split at hset
    · cases hset
    · rename_i hnone
      -- there was no key, so no column was marked before this one
      have hnil : t.primaryKey = [] := by simpa using hnone
      cases hset
      intro c hc hkey
      have hlisted := h c hc hkey
      rw [hnil] at hlisted
      cases hlisted
  | unique | foreignKey | index =>
    obtain ⟨found, -, hset⟩ := ok_of_bind hc
    cases hset
    exact h
  | ignored =>
    cases hc
    exact h

/-- A definition lists the flagged columns and flags the listed ones. -/
theorem MadeOfElements.keyed {t : TableDefinition} (h : MadeOfElements t) :
    t.table.Keyed fun _ => False := by
  obtain ⟨d, table, ifNotExists, hd, hdef⟩ := h
  have hdeclared := (hd.definition hdef).wellFormed.primaryKey
  unfold TableDraft.definition at hdef
  dsimp only at hdef
  split at hdef
  · cases hdef
  · split at hdef
    · cases hdef
    · obtain ⟨s, hall, hmade⟩ := ok_of_bind hdef
      -- the list starts with the flagged columns, and every constraint keeps them in it
      have hs := foldlM_ok
        (I := fun s : Table × List PendingForeignKey =>
          ∀ c ∈ s.1.columns, c.primaryKey = true → c.name ∈ s.1.primaryKey)
        (fun c _ s s' h hc => listed_applyConstraint h hc)
        (fun c hc hkey => List.mem_map_of_mem (List.mem_filter.2 ⟨hc, hkey⟩)) hall
      cases hmade
      refine Table.keyed_markPrimaryKey (fun n hn => ?_) fun c hc hkey => .inl (hs c hc hkey)
      rw [← Table.columnNames_markPrimaryKey]
      exact hdeclared n hn

end Sql.Parser

-- ---------------------------------------------------------------------------
-- Changes
-- ---------------------------------------------------------------------------

/-- A column of that name is added to a table of that name, with a key clause of its own. -/
def AddsKeyColumn (changes : List TableChange) (table column : String) : Prop :=
  ∃ written actions d, .alter written actions ∈ changes ∧ sameName table written = true ∧
    AlterAction.addColumn d ∈ actions ∧ d.column.name = column ∧ d.column.primaryKey = true

/-- An action keeps a table keyed if the columns that it adds with a key clause may be stray. -/
theorem Staged.Act.keyed {s s' : Staged} {a : AlterAction} {stray : String → Prop}
    (h : s.Act a s')
    (hstray : ∀ d, a = .addColumn d → d.column.primaryKey = true → stray d.column.name)
    (hs : s.table.Keyed stray) : s'.table.Keyed stray := by
  cases h with
  | @addColumn d hnew => exact hs.addColumn hnew (hstray d rfl)
  | addForeignKey => exact hs
  | addUnique | addIndex => exact ⟨hs.declared, hs.listed, hs.flagged⟩
  | @addPrimaryKey names columns hfound hone =>
    -- a flagged column is on the old list, which is the new one or has no names, or stray
    refine Table.keyed_markPrimaryKey (Table.declaredColumns_eq_ok hfound).1 fun c hc hkey => ?_
    rcases hs.flagged c hc hkey with hold | hc
    · rcases hone with hnone | hsame
      · rw [hnone] at hold
        cases hold
      · exact .inl (hsame ▸ hold)
    · exact .inr hc
  | setDefault =>
    refine hs.setColumns ?_
    rw [map_modifyFirst]
    exact fun _ => rfl

/-- Tables are keyed at any time, but for the columns that changes add with a key clause. -/
theorem tableInvariant_keyed (dialect : Dialect) (changes : List TableChange) :
    TableInvariant dialect changes fun t => t.Keyed (AddsKeyColumn changes t.name) where
  defined hparse :=
    (Statement.parsed_of_parse hparse : Sql.Parser.MadeOfElements _).keyed.mono fun _ => False.elim
  indexed _ hkeyed := ⟨hkeyed.declared, hkeyed.listed, hkeyed.flagged⟩
  acted hmem ha hname hact hkeyed := by
    rw [hact.keeps.1]
    refine hact.keyed (fun d hd hkey => ?_) hkeyed
    exact ⟨_, _, d, hmem, hname, hd ▸ ha, rfl, hkey⟩
  typed names hkeyed := by
    refine hkeyed.setColumns ?_
    rw [List.map_map]
    rfl
  linked _ hkeyed := ⟨hkeyed.declared, hkeyed.listed, hkeyed.flagged⟩

/-- **Primary keys.** In every table that a script makes, in whatever dialect, the flag of a column
agrees with the list of the table, and a flagged column is not null, unless a change adds the column
with a key clause of its own and the list does not name it. -/
theorem primaryKey_agrees (script : String) (dialect : Dialect) :
    ∀ t ∈ (Extraction.ofScript script dialect).catalog.tables, ∀ c ∈ t.columns,
      ((c.primaryKey = true ↔ c.name ∈ t.primaryKey) ∧ (c.primaryKey = true → c.nullable = false)) ∨
        c.primaryKey = true ∧ c.name ∉ t.primaryKey ∧
          AddsKeyColumn (changesOf (dialect.resolve script) (originsOf script)) t.name c.name := by
  intro t ht c hc
  have hkeyed := (tableInvariant_keyed _ _).ofStatements t ht
  by_cases hlisted : c.name ∈ t.primaryKey
  · obtain ⟨hkey, hnull⟩ := hkeyed.listed c hc hlisted
    exact .inl ⟨iff_of_true hkey hlisted, fun _ => hnull⟩
  · by_cases hkey : c.primaryKey = true
    · exact .inr ⟨hkey, hlisted, (hkeyed.flagged c hc hkey).resolve_left hlisted⟩
    · exact .inl ⟨iff_of_false hkey hlisted, fun hkey' => absurd hkey' hkey⟩

/-- The second pass over a single change that applies and adds no reference. -/
theorem Draft.finish_of_change {d : Draft} {o : Origin} {change : TableChange} {catalog : Catalog}
    (hchanges : d.changes = [(o, change)])
    (h : TableChange.apply d.catalog change = .ok (catalog, [])) :
    d.finish = followAll { catalog := catalog.withEnumColumns, errors := d.errors } d.pending := by
  have happlied : d.applyChanges [(o, change)] = { d with catalog } := by
    change d.applyChange o change = _
    rw [applyChange, h]
    simp
  rw [finish, hchanges, happlied]

/-- A table with one column, which is its key, and the table before it has the key. -/
private def keyed : Table where
  name := "a"
  columns := [{ name := "x", declaredType := "INT", dataType := .integer, nullable := false,
                primaryKey := true }]
  primaryKey := ["x"]

private def keyless : Table where
  name := "a"
  columns := [{ name := "x", declaredType := "INT", dataType := .integer }]

/-- The key is added in another spelling. To compare two spellings takes the kernel long, so the
steps are given one by one. -/
private theorem apply_laterKey : TableChange.apply { tables := [keyless] }
    (.alter "a" [.addPrimaryKey ["X"]]) = .ok ({ tables := [keyed] }, []) := by
  have hspelled : sameName "x" "X" = true := Text.sameName_of_map_eq (by decide)
  have hcolumn : keyless.column? "X" =
      some { name := "x", declaredType := "INT", dataType := .integer } :=
    List.find?_cons_of_pos hspelled
  have hcolumns : keyless.requireColumns ["X"] "PRIMARY KEY" = .ok ["x"] := by
    rw [Table.requireColumns, Table.declaredColumns, hcolumn]
    rfl
  have hact : Staged.act { table := keyless } (.addPrimaryKey ["X"]) = .ok { table := keyed } := by
    rw [Staged.act, hcolumns]
    rfl
  have hfound : ({ tables := [keyless] } : Catalog).table? "a" = some keyless :=
    List.find?_cons_of_pos (sameName_self "a")
  have hchanged : ({ tables := [keyless] } : Catalog).modifyTable "a" (fun _ => keyed) =
      { tables := [keyed] } :=
    congrArg (fun tables => ({ tables } : Catalog)) (if_pos (sameName_self "a"))
  simp only [TableChange.apply, hfound, List.foldlM_cons, List.foldlM_nil, hact]
  exact congrArg (fun c => Except.ok (c, [])) hchanged

/-- The flag and the list agree on a key that is added after its table. -/
theorem primaryKey_agrees_of_later_key :
    let script := "CREATE TABLE a (x INT); ALTER TABLE a ADD PRIMARY KEY (X)"
    let x : Column := { name := "x", declaredType := "INT", dataType := .integer,
                        nullable := false, primaryKey := true }
    let a : Table := { name := "a", columns := [x], primaryKey := ["x"] }
    a ∈ (Extraction.ofScript script .generic).catalog.tables ∧ x ∈ a.columns ∧
      (((x.primaryKey = true ↔ x.name ∈ a.primaryKey) ∧
          (x.primaryKey = true → x.nullable = false)) ∨
        x.primaryKey = true ∧ x.name ∉ a.primaryKey ∧
          AddsKeyColumn (changesOf (Dialect.generic.resolve script) (originsOf script))
            a.name x.name) := by
  intro script x a
  have ha : keyed ∈ (Extraction.ofScript script .generic).catalog.tables := by
    rw [Extraction.ofScript_of_toList String.toList_ofList,
      show Dialect.resolve .generic script = .generic from rfl]
    -- the tokens are read once, and then forgotten but for what they are read as
    generalize hss : numbered _ = ss
    have hparse : ss.map (fun s => Statement.parse .generic s.2) =
        [.ok (.createTable ⟨keyless, [], [], false⟩),
          .ok (.change (.alter "a" [.addPrimaryKey ["X"]]))] := by
      subst hss
      decide +kernel
    obtain ⟨⟨o, ts⟩, _, rfl, hts, hrest⟩ := List.map_eq_cons_iff.1 hparse
    obtain ⟨⟨o', ts'⟩, _, rfl, hts', hnil⟩ := List.map_eq_cons_iff.1 hrest
    obtain rfl := List.map_eq_nil_iff.1 hnil
    have hadded : Draft.addAll {} .generic [(o, ts), (o', ts')] =
        { catalog := { tables := [keyless] }
          changes := [(o', .alter "a" [.addPrimaryKey ["X"]])] } := by
      dsimp only at hts hts'
      simp only [Draft.addAll, List.foldl_cons, List.foldl_nil, Draft.addTokens, hts, hts']
      rfl
    rw [Extraction.ofStatements, hadded, Draft.finish_of_change rfl apply_laterKey]
    exact List.mem_singleton_self keyed
  have hx : x ∈ a.columns := List.mem_singleton_self x
  exact ⟨ha, hx, primaryKey_agrees script .generic a ha x hx⟩

/-- A column that is added with a key clause is flagged and not listed. -/
theorem primaryKey_of_added_column_unlisted :
    ¬ ∀ (script : String) (dialect : Dialect),
      ∀ t ∈ (Extraction.ofScript script dialect).catalog.tables, ∀ c ∈ t.columns,
        (c.primaryKey = true ↔ c.name ∈ t.primaryKey) ∧
          (c.primaryKey = true → c.nullable = false) := by
  intro h
  have hscript := h "CREATE TABLE a (x INT); ALTER TABLE a ADD COLUMN id INT PRIMARY KEY" .generic
  rw [Extraction.ofScript_of_toList String.toList_ofList] at hscript
  revert hscript
  decide +kernel

end CrudGen
