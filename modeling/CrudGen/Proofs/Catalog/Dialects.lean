import CrudGen.Catalog.Build
import CrudGen.Proofs.Sql.Dialects

/-!
# Extractions — what a dialect decides

Building a catalog looks at no type, but for giving columns their enumeration, which changes nothing
but the type. Two readings of a script in different dialects therefore note the same errors at the
same statements, leave the same references unresolved, and make up catalogs that differ only in the
types of columns.

Main results:

* `TableChange.apply_untyped` — a change applies or misfits in the same way.
* `Draft.finish_untyped` — the second pass goes along with leaving out the types.
* `Extraction.ofScript_untyped` — nothing but the types depends on the dialect.
-/

namespace CrudGen

open Sql (TableChange TableDefinition PendingForeignKey AlterAction Statement)

/-- What is read from a script, without the types of columns. -/
def Extraction.untyped (x : Extraction) : Extraction :=
  { x with catalog := x.catalog.untyped }

/-- A draft without the types of columns, neither of those there nor of those that are added. -/
def Draft.untyped (d : Draft) : Draft :=
  { d with
    catalog := d.catalog.untyped
    changes := d.changes.map fun entry => (entry.1, entry.2.untyped) }

/-- A table with what actions have added so far, without the types of its columns. -/
def Staged.untyped (s : Staged) : Staged :=
  { s with table := s.table.untyped }

-- ---------------------------------------------------------------------------
-- Changes
-- ---------------------------------------------------------------------------

/-- An action without types is the action, and so it is refused or not. -/
theorem Staged.act_untyped (s : Staged) (a : AlterAction) :
    s.untyped.act a.untyped = (s.act a).map Staged.untyped := by
  have hrequire (columns : List String) (context : String) :
      s.untyped.table.requireColumns columns context = s.table.requireColumns columns context :=
    s.table.requireColumns_untyped columns context
  have hhas (name : String) : s.untyped.table.hasColumn name = s.table.hasColumn name :=
    s.table.hasColumn_untyped name
  cases a with
  | addColumn d =>
    have hname : s.untyped.table.hasColumn d.untyped.column.name =
        s.table.hasColumn d.column.name := hhas d.column.name
    simp only [AlterAction.untyped, act, hname]
    cases s.table.hasColumn d.column.name with
    | true => rfl
    | false =>
      refine congrArg Except.ok ?_
      simp only [Staged.untyped, Table.untyped, List.map_append]
      rfl
  | addForeignKey fk =>
    simp only [AlterAction.untyped, act, hrequire]
    cases s.table.requireColumns fk.columns "FOREIGN KEY" <;> rfl
  | addUnique u =>
    simp only [AlterAction.untyped, act, hrequire]
    cases s.table.requireColumns u.columns "UNIQUE" <;> rfl
  | addPrimaryKey columns =>
    simp only [AlterAction.untyped, act, hrequire]
    cases s.table.requireColumns columns "PRIMARY KEY" with
    | error e => rfl
    | ok found =>
      -- a second key is refused with types as without them
      change (if (!s.table.primaryKey.isEmpty && s.table.primaryKey != found) = true then _
        else _) = Except.map untyped (if _ then _ else _)
      split
      · rfl
      · exact congrArg (fun table => Except.ok { s with table })
          (Table.markPrimaryKey_untyped { s.table with primaryKey := found })
  | addIndex i =>
    simp only [AlterAction.untyped, act, hrequire]
    cases s.table.requireColumns i.columns "INDEX" <;> rfl
  | setDefault column expression =>
    simp only [AlterAction.untyped, act, hhas]
    cases s.table.hasColumn column with
    | false => rfl
    | true =>
      -- a default is set in the columns as it is set in them without types
      let change (c : Column) : Column :=
        { c with
          default := some expression
          autoIncrement := c.autoIncrement || Sql.Parser.drawsFromSequence expression }
      have hcolumns :
          (modifyFirst (fun c => Text.sameName c.name column) change s.table.columns).map
            Column.untyped = modifyFirst (fun c => Text.sameName c.name column) change
              (s.table.columns.map Column.untyped) := by
        refine modifyFirst_view ?_ ?_ _
        · exact fun _ => rfl
        · exact fun _ => rfl
      exact congrArg (fun columns => Except.ok { s with table := { s.table with columns } })
        hcolumns.symm

/-- Enumerations one after the other are added without types as with them. -/
theorem addEnums_untyped (enums : List EnumType) (c : Catalog) :
    enums.foldl Catalog.addEnum c.untyped = (enums.foldl Catalog.addEnum c).untyped :=
  List.foldl_hom Catalog.untyped fun c e => (c.addEnum_untyped e).symm

/-- A change applies or misfits in the same way. -/
theorem TableChange.apply_untyped (c : Catalog) (change : TableChange) :
    TableChange.apply c.untyped change.untyped =
      (TableChange.apply c change).map (Prod.map Catalog.untyped id) := by
  cases change with
  | index table index =>
    simp only [TableChange.untyped, apply, Catalog.table?_untyped]
    cases c.table? table with
    | none => rfl
    | some t =>
      cases index with
      | none => rfl
      | some i =>
        simp only [Option.map_some, Table.requireColumns_untyped]
        cases t.requireColumns i.columns "CREATE INDEX" with
        | error e => rfl
        | ok found =>
          let addIndex (t : Table) : Table :=
            { t with indexes := t.indexes ++ [{ i with columns := found }] }
          have hmodified := c.modifyTable_untyped table addIndex addIndex fun _ => rfl
          exact congrArg (fun catalog => Except.ok (catalog, [])) hmodified.symm
  | alter table actions =>
    simp only [TableChange.untyped, apply, Catalog.table?_untyped]
    cases c.table? table with
    | none => rfl
    | some t =>
      -- the actions are followed one by one, without types as with them
      have hacted : (actions.map AlterAction.untyped).foldlM Staged.act { table := t.untyped } =
          (actions.foldlM Staged.act { table := t }).map Staged.untyped :=
        foldlM_view Staged.act_untyped actions { table := t }
      simp only [Option.map_some, hacted]
      cases actions.foldlM Staged.act { table := t } with
      | error e => rfl
      | ok s =>
        have hmodified := c.modifyTable_untyped table (fun _ => s.table)
          (fun _ => s.untyped.table) fun _ => rfl
        have henums : s.untyped.enums.foldl Catalog.addEnum
            (c.untyped.modifyTable table fun _ => s.untyped.table) =
              (s.enums.foldl Catalog.addEnum (c.modifyTable table fun _ => s.table)).untyped := by
          rw [← hmodified]
          exact addEnums_untyped s.enums _
        exact congrArg (fun catalog =>
          Except.ok (catalog, s.foreignKeys.map fun fk => (s.table.name, fk))) henums

-- ---------------------------------------------------------------------------
-- The first pass
-- ---------------------------------------------------------------------------

namespace Draft

/-- A table is added without types as with them. -/
theorem addTable_untyped (d : Draft) (origin : Origin) (t : TableDefinition) :
    d.untyped.addTable origin t.untyped = (d.addTable origin t).untyped := by
  have hthere : (d.untyped.catalog.table? t.untyped.table.name).isSome =
      (d.catalog.table? t.table.name).isSome :=
    (congrArg _ (d.catalog.table?_untyped t.table.name)).trans Option.isSome_map
  rw [addTable, addTable, hthere]
  -- a table that is there is refused or passed over, as before
  split
  · change (if t.ifNotExists = true then _ else _) = _
    split <;> rfl
  -- otherwise the table and its enumerations are added
  · have hadded (c : Catalog) :
        ({ c.untyped with tables := c.untyped.tables ++ [t.table.untyped] } : Catalog) =
          ({ c with tables := c.tables ++ [t.table] } : Catalog).untyped := by
      simp only [Catalog.untyped, List.map_append, List.map_singleton]
    have henums : t.untyped.inlineEnums.foldl Catalog.addEnum d.untyped.catalog =
        (t.inlineEnums.foldl Catalog.addEnum d.catalog).untyped :=
      addEnums_untyped t.inlineEnums d.catalog
    dsimp only
    rw [henums]
    exact congrArg (fun catalog => ({ d.untyped with
      catalog
      pending := d.pending ++ t.foreignKeys.map fun fk => (t.table.name, fk) } : Draft)) (hadded _)

theorem add_untyped (d : Draft) (origin : Origin) (s : Statement) :
    d.untyped.add origin s.untyped = (d.add origin s).untyped := by
  cases s with
  | createTable t => exact addTable_untyped d origin t
  | change c =>
    have hchanges : d.untyped.changes ++ [(origin, c.untyped)] =
        (d.changes ++ [(origin, c)]).map fun entry => (entry.1, entry.2.untyped) := by
      rw [List.map_append]
      rfl
    exact congrArg (fun changes => ({ d.untyped with changes } : Draft)) hchanges
  | createSequence s =>
    exact congrArg (fun catalog : Catalog => ({ d.untyped with catalog } : Draft))
      (d.catalog.addSequence_untyped s).symm
  | createEnum e =>
    exact congrArg (fun catalog : Catalog => ({ d.untyped with catalog } : Draft))
      (d.catalog.addEnum_untyped e).symm
  | skipped => rfl

/-- Drafts that look the same do so after a statement that was read in two dialects. -/
theorem addTokens_untyped {d d' : Draft} (h : d.untyped = d'.untyped)
    (dialect dialect' : Sql.Dialect) (origin : Origin) (tokens : List Sql.Token) :
    (d.addTokens dialect origin tokens).untyped =
      (d'.addTokens dialect' origin tokens).untyped := by
  have hparse := Statement.parse_untyped dialect dialect' tokens
  rw [addTokens, addTokens]
  cases hread : Statement.parse dialect tokens with
  | error e =>
    -- both dialects parse the statement, or neither does
    cases hread' : Statement.parse dialect' tokens with
    | error e' =>
      rw [hread, hread'] at hparse
      cases hparse
      exact congrArg (addError · _) h
    | ok s' =>
      rw [hread, hread'] at hparse
      cases hparse
  | ok s =>
    cases hread' : Statement.parse dialect' tokens with
    | error e' =>
      rw [hread, hread'] at hparse
      cases hparse
    | ok s' =>
      rw [hread, hread'] at hparse
      have hsame : s.untyped = s'.untyped := Except.ok.inj hparse
      dsimp only
      rw [← add_untyped, ← add_untyped, h, hsame]

/-- Scripts in two dialects make drafts that differ in types only. -/
theorem addAll_untyped {d d' : Draft} (h : d.untyped = d'.untyped) (dialect dialect' : Sql.Dialect)
    (statements : List (Origin × List Sql.Token)) :
    (d.addAll dialect statements).untyped = (d'.addAll dialect' statements).untyped := by
  induction statements generalizing d d' with
  | nil => exact h
  | cons statement rest ih =>
    exact ih (addTokens_untyped h dialect dialect' statement.1 statement.2)

-- ---------------------------------------------------------------------------
-- The second pass
-- ---------------------------------------------------------------------------

/-- A change is made without types as with them. -/
theorem applyChange_untyped (d : Draft) (origin : Origin) (change : TableChange) :
    d.untyped.applyChange origin change.untyped = (d.applyChange origin change).untyped := by
  have happly : TableChange.apply d.untyped.catalog change.untyped =
      (TableChange.apply d.catalog change).map (Prod.map Catalog.untyped id) :=
    TableChange.apply_untyped d.catalog change
  rw [applyChange, applyChange, happly]
  cases TableChange.apply d.catalog change <;> rfl

theorem applyChanges_untyped (d : Draft) (changes : List (Origin × TableChange)) :
    d.untyped.applyChanges (changes.map fun entry => (entry.1, entry.2.untyped)) =
      (d.applyChanges changes).untyped := by
  rw [applyChanges, applyChanges, List.foldl_map]
  exact List.foldl_hom untyped fun d entry => applyChange_untyped d entry.1 entry.2

end Draft

/-- A reference is resolved without looking at types. -/
theorem PendingForeignKey.resolve_untyped (c : Catalog) (fk : PendingForeignKey) :
    PendingForeignKey.resolve c.untyped fk = PendingForeignKey.resolve c fk := by
  rw [resolve, resolve, Catalog.table?_untyped]
  cases c.table? fk.targetTable with
  | none => rfl
  | some target =>
    simp only [Option.map_some, Table.declaredColumns_untyped]
    rfl

namespace Draft

/-- A reference is followed without looking at types. -/
theorem follow_untyped (x : Extraction) (table : String) (fk : PendingForeignKey) :
    follow x.untyped table fk = (follow x table fk).untyped := by
  have hresolve : PendingForeignKey.resolve x.untyped.catalog fk =
      PendingForeignKey.resolve x.catalog fk :=
    PendingForeignKey.resolve_untyped x.catalog fk
  rw [follow, follow, hresolve]
  cases PendingForeignKey.resolve x.catalog fk with
  | error dangling => rfl
  | ok resolved =>
    let store (t : Table) : Table := { t with foreignKeys := t.foreignKeys ++ [resolved] }
    have hmodified := x.catalog.modifyTable_untyped table store store fun _ => rfl
    exact congrArg (fun catalog => ({ x with catalog } : Extraction)) hmodified.symm

theorem followAll_untyped (x : Extraction) (pending : List (String × PendingForeignKey)) :
    followAll x.untyped pending = (followAll x pending).untyped :=
  List.foldl_hom Extraction.untyped fun x entry => follow_untyped x entry.1 entry.2

/-- The second pass looks at no types. -/
theorem finish_untyped {d d' : Draft} (h : d.untyped = d'.untyped) :
    d.finish.untyped = d'.finish.untyped := by
  have happly (d : Draft) : d.finish.untyped =
      followAll {
        catalog := (d.untyped.applyChanges d.untyped.changes).catalog
        errors := (d.untyped.applyChanges d.untyped.changes).errors }
      (d.untyped.applyChanges d.untyped.changes).pending := by
    have happlied : d.untyped.applyChanges d.untyped.changes = (d.applyChanges d.changes).untyped :=
      applyChanges_untyped d d.changes
    rw [happlied, finish, ← followAll_untyped]
    exact congrArg (fun catalog => followAll { catalog, errors := _ } _)
      (Catalog.withEnumColumns_untyped _)
  rw [happly, happly, h]

end Draft

/-- **Dialects.** Nothing but the types of columns depends on the dialect that a script is read
in. -/
theorem Extraction.ofScript_untyped (script : String) (d d' : Sql.Dialect) :
    (Extraction.ofScript script d).untyped = (Extraction.ofScript script d').untyped :=
  Draft.finish_untyped (Draft.addAll_untyped rfl _ _ _)

end CrudGen
