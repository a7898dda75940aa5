import CrudGen.Proofs.Sql.Definition

/-!
# Changes — what a statement does to one table

`Staged.Act` says what each action of an `ALTER TABLE` does when it succeeds, and
`TableChange.Applied` what a whole change does. A change replaces one table by another of the same
name, and leaves every other table as it is.

Main results:

* `Staged.act_cases`, `TableChange.apply_cases` — success means just this.
* `TableChange.Applied.replaces` — the table that is replaced, and what its replacement keeps.
-/

namespace CrudGen

open Text (sameName)
open Sql (AlterAction PendingForeignKey TableChange)

-- ---------------------------------------------------------------------------
-- Tables of a catalog
-- ---------------------------------------------------------------------------

/-- One table of a catalog stands where another stood. -/
def Catalog.Replaces (c c' : Catalog) (t t' : Table) : Prop :=
  ∃ before after, c.tables = before ++ t :: after ∧ c'.tables = before ++ t' :: after

/-- The first element with the property is changed, wherever it stands. -/
theorem modifyFirst_append {α : Type} {p : α → Bool} {before after : List α} {a : α} (ha : p a)
    (hbefore : ∀ b ∈ before, ¬ p b) (f : α → α) :
    modifyFirst p f (before ++ a :: after) = before ++ f a :: after := by
  induction before with
  | nil => simp [modifyFirst, ha]
  | cons b rest ih =>
    rw [List.cons_append, modifyFirst, if_neg (hbefore b List.mem_cons_self),
      ih fun b hb => hbefore b (List.mem_cons_of_mem _ hb)]
    rfl

/-- What a change leaves alone is left alone in all elements. -/
theorem map_modifyFirst {α β : Type} {p : α → Bool} {f : α → α} {g : α → β}
    (hf : ∀ a, g (f a) = g a) (as : List α) : (modifyFirst p f as).map g = as.map g := by
  induction as with
  | nil => rfl
  | cons a rest ih =>
    rw [modifyFirst]
    split
    · simp [hf]
    · simp [ih]

/-- What a change keeps holds of all elements after it. -/
theorem forall_modifyFirst {α : Type} {p : α → Bool} {f : α → α} {P : α → Prop} {as : List α}
    (h : ∀ a ∈ as, P a) (hf : ∀ a, P a → P (f a)) : ∀ a ∈ modifyFirst p f as, P a := by
  induction as with
  | nil => exact h
  | cons a rest ih =>
    rw [List.forall_mem_cons] at h
    rw [modifyFirst]
    split
    · exact List.forall_mem_cons.2 ⟨hf a h.1, h.2⟩
    · exact List.forall_mem_cons.2 ⟨h.1, ih h.2⟩

namespace Catalog

variable {c : Catalog} {t : Table}

/-- Changing the table of a name replaces the table that is found under it. -/
theorem replaces_modifyTable {name : String} (h : c.table? name = some t) (f : Table → Table) :
    c.Replaces (c.modifyTable name f) t (f t) := by
  obtain ⟨hname, before, after, htables, hbefore⟩ := List.find?_eq_some_iff_append.1 h
  refine ⟨before, after, htables, ?_⟩
  rw [modifyTable, htables]
  exact modifyFirst_append (p := fun t : Table => sameName t.name name) hname
    (by simpa using hbefore) f

/-- A table that is found is one of the catalog, and has the name in some case. -/
theorem mem_of_table? {name : String} (h : c.table? name = some t) :
    t ∈ c.tables ∧ sameName t.name name = true :=
  ⟨List.mem_of_find?_eq_some h, List.find?_some (p := fun t : Table => sameName t.name name) h⟩

/-- Under its declared name a table is found. -/
theorem table?_of_mem (hdistinct : DistinctNames (c.tables.map (·.name))) (ht : t ∈ c.tables) :
    c.table? t.name = some t := by
  obtain ⟨before, after, htables⟩ := List.append_of_mem ht
  refine List.find?_eq_some_iff_append.2 ⟨sameName_self t.name, before, after, htables, ?_⟩
  intro u hu
  rw [htables, List.map_append, List.map_cons] at hdistinct
  have hne := (List.pairwise_append.1 hdistinct).2.2 u.name (List.mem_map_of_mem hu) t.name
    List.mem_cons_self
  simpa using hne

/-- Enumerations are no tables. -/
theorem tables_addEnum (c : Catalog) (e : EnumType) : (c.addEnum e).tables = c.tables := by
  unfold addEnum
  split <;> rfl

theorem tables_addEnums (c : Catalog) (es : List EnumType) :
    (es.foldl addEnum c).tables = c.tables := by
  induction es generalizing c with
  | nil => rfl
  | cons e rest ih => rw [List.foldl_cons, ih, tables_addEnum]

/-- Sequences are no tables. -/
theorem tables_addSequence (c : Catalog) (s : Sequence) : (c.addSequence s).tables = c.tables := by
  unfold addSequence
  split <;> rfl

end Catalog

-- ---------------------------------------------------------------------------
-- Actions
-- ---------------------------------------------------------------------------

/-- What an action does to a staged table. -/
inductive Staged.Act (s : Staged) : AlterAction → Staged → Prop
  | addColumn {d} (hnew : s.table.hasColumn d.column.name = false) :
      Act s (.addColumn d) {
        table := { s.table with columns := s.table.columns ++ [d.column] }
        foreignKeys := s.foreignKeys ++ d.foreignKey.toList
        enums := s.enums ++ d.inlineEnum.toList }
  | addForeignKey {fk columns} (hfound : s.table.declaredColumns fk.columns = .ok columns) :
      Act s (.addForeignKey fk) { s with foreignKeys := s.foreignKeys ++ [{ fk with columns }] }
  | addUnique {u columns} (hfound : s.table.declaredColumns u.columns = .ok columns) :
      Act s (.addUnique u) { s with
        table := { s.table with uniques := s.table.uniques ++ [{ u with columns }] } }
  | addPrimaryKey {names columns} (hfound : s.table.declaredColumns names = .ok columns)
      (hone : s.table.primaryKey = [] ∨ s.table.primaryKey = columns) :
      Act s (.addPrimaryKey names) { s with
        table := Sql.Parser.markPrimaryKey { s.table with primaryKey := columns } }
  | addIndex {i columns} (hfound : s.table.declaredColumns i.columns = .ok columns) :
      Act s (.addIndex i) { s with
        table := { s.table with indexes := s.table.indexes ++ [{ i with columns }] } }
  | setDefault {column expression} (hcolumn : s.table.hasColumn column = true) :
      Act s (.setDefault column expression) { s with
        table := { s.table with
          columns := modifyFirst (fun c => sameName c.name column)
            (fun c => { c with
              default := some expression
              autoIncrement := c.autoIncrement || Sql.Parser.drawsFromSequence expression })
            s.table.columns } }

/-- An action that is accepted does what `Staged.Act` says of it. -/
theorem Staged.act_cases {s s' : Staged} {a : AlterAction} (h : s.act a = .ok s') :
    s.Act a s' := by
  cases a with
  | addColumn d =>
    simp only [act] at h
    split at h
    · cases h
    · rename_i hnew
      cases h
      exact .addColumn (by simpa using hnew)
  | addForeignKey fk =>
    obtain ⟨columns, hfound, hset⟩ := ok_of_bind h
    cases hset
    exact .addForeignKey (ok_of_mapError hfound)
  | addUnique u =>
    obtain ⟨columns, hfound, hset⟩ := ok_of_bind h
    cases hset
    exact .addUnique (ok_of_mapError hfound)
  | addPrimaryKey names =>
    -- a second key is refused
    obtain ⟨columns, hfound, hset⟩ := ok_of_bind h
    dsimp only at hset
    split at hset
    · cases hset
    · rename_i hone
      cases hset
      refine .addPrimaryKey (ok_of_mapError hfound) ?_
      simpa [or_iff_not_imp_left] using hone
  | addIndex i =>
    obtain ⟨columns, hfound, hset⟩ := ok_of_bind h
    cases hset
    exact .addIndex (ok_of_mapError hfound)
  | setDefault column expression =>
    simp only [act] at h
    split at h
    · cases h
    · rename_i hcolumn
      cases h
      exact .setDefault (by simpa using hcolumn)

namespace Staged.Act

variable {s s' : Staged} {a : AlterAction}

/-- A table keeps its name and its columns. -/
theorem keeps (h : s.Act a s') :
    s'.table.name = s.table.name ∧ s.table.columnNames ⊆ s'.table.columnNames := by
  cases h with
  | addColumn =>
    refine ⟨rfl, fun n hn => ?_⟩
    rw [Table.columnNames, List.map_append]
    exact List.mem_append_left _ hn
  | addForeignKey | addUnique | addIndex => exact ⟨rfl, List.Subset.refl _⟩
  | addPrimaryKey =>
    refine ⟨rfl, ?_⟩
    rw [Table.columnNames_markPrimaryKey]
    exact List.Subset.refl _
  | setDefault =>
    refine ⟨rfl, fun n hn => ?_⟩
    rw [Table.columnNames, map_modifyFirst]
    · exact hn
    · exact fun _ => rfl

/-- A sound action keeps a staged table drafted. -/
theorem drafted (h : s.Act a s') (ha : a.Sound) (hs : s.table.Drafted s.foreignKeys) :
    s'.table.Drafted s'.foreignKeys := by
  -- whatever names columns looks them up first, so it names them as declared
  cases h with
  | addColumn hnew => exact hs.addColumn hnew ha
  | addForeignKey hfound => exact hs.addReference (Table.declaredColumns_eq_ok hfound).1
  | addUnique hfound => exact hs.addUnique (Table.declaredColumns_eq_ok hfound).1
  | addPrimaryKey hfound =>
    exact (hs.setPrimaryKey (Table.declaredColumns_eq_ok hfound).1).markPrimaryKey
  | addIndex hfound => exact hs.addIndex (Table.declaredColumns_eq_ok hfound).1
  | setDefault =>
    refine hs.setColumns ?_
    rw [map_modifyFirst]
    · rfl
    · exact fun _ => rfl

end Staged.Act

/-- Actions keep the name of the table and its columns. -/
theorem Staged.keeps_of_actions {actions : List AlterAction} {s s' : Staged}
    (h : actions.foldlM Staged.act s = .ok s') :
    s'.table.name = s.table.name ∧ s.table.columnNames ⊆ s'.table.columnNames := by
  refine foldlM_ok (I := fun s' : Staged => s'.table.name = s.table.name ∧
    s.table.columnNames ⊆ s'.table.columnNames) (fun a _ s₁ s₂ hs₁ hact => ?_)
    ⟨rfl, List.Subset.refl _⟩ h
  have hkeeps := (act_cases hact).keeps
  exact ⟨hkeeps.1.trans hs₁.1, fun n hn => hkeeps.2 (hs₁.2 hn)⟩

/-- Actions that are sound keep a table sound, one after the other. -/
theorem Staged.drafted_of_actions {actions : List AlterAction} {s s' : Staged}
    (ha : ∀ a ∈ actions, a.Sound) (hs : s.table.Drafted s.foreignKeys)
    (h : actions.foldlM Staged.act s = .ok s') : s'.table.Drafted s'.foreignKeys :=
  foldlM_ok (I := fun s : Staged => s.table.Drafted s.foreignKeys)
    (fun a hmem _ _ hs hact => (act_cases hact).drafted (ha a hmem) hs) hs h

-- ---------------------------------------------------------------------------
-- Changes
-- ---------------------------------------------------------------------------

namespace Sql.TableChange

variable {c : Catalog}

/-- What a change does to a catalog, with the references that it adds. -/
inductive Applied (c : Catalog) : TableChange → Catalog × List (String × PendingForeignKey) → Prop
  | expressions {table t} (ht : c.table? table = some t) : Applied c (.index table none) (c, [])
  | index {table t i columns} (ht : c.table? table = some t)
      (hfound : t.declaredColumns i.columns = .ok columns) :
      Applied c (.index table (some i))
        (c.modifyTable table fun t => { t with indexes := t.indexes ++ [{ i with columns }] }, [])
  | alter {table t actions s} (ht : c.table? table = some t)
      (hs : actions.foldlM Staged.act { table := t } = .ok s) :
      Applied c (.alter table actions)
        (s.enums.foldl Catalog.addEnum (c.modifyTable table fun _ => s.table),
          s.foreignKeys.map fun fk => (s.table.name, fk))

/-- A change that is accepted does what `Applied` says of it. -/
theorem apply_cases {change : TableChange} {r : Catalog × List (String × PendingForeignKey)}
    (h : CrudGen.TableChange.apply c change = .ok r) : Applied c change r := by
  -- a change applies to a table that is declared, and needs its columns there
  cases change with
  | index table i? =>
    simp only [CrudGen.TableChange.apply] at h
    split at h
    · rename_i t ht
      cases i? with
      | none =>
        cases h
        exact .expressions ht
      | some i =>
        obtain ⟨columns, hfound, hset⟩ := ok_of_bind h
        cases hset
        exact .index ht (ok_of_mapError hfound)
    · cases h
  | alter table actions =>
    simp only [CrudGen.TableChange.apply] at h
    split at h
    · rename_i t ht
      obtain ⟨s, hs, hset⟩ := ok_of_bind h
      cases hset
      exact .alter ht hs
    · cases h

/-- A change replaces one table by one that keeps its name and columns. A sound change keeps it
drafted, and adds references of that table only. -/
theorem Applied.replaces {change : TableChange} {c' : Catalog}
    {refs : List (String × PendingForeignKey)} (h : Applied c change (c', refs)) :
    ∃ t t' fks, c.Replaces c' t t' ∧ t'.name = t.name ∧ t.columnNames ⊆ t'.columnNames ∧
      refs = fks.map (fun fk => (t'.name, fk)) ∧
      (change.Sound → t.Drafted [] → t'.Drafted fks) := by
  cases h with
  | @expressions table t ht =>
    -- an index over expressions is dropped: the table stands for itself
    obtain ⟨before, after, htables⟩ := List.append_of_mem (Catalog.mem_of_table? ht).1
    exact ⟨t, t, [], ⟨before, after, htables, htables⟩, rfl, List.Subset.refl _, rfl, fun _ => id⟩
  | @index table t i columns ht hfound =>
    exact ⟨t, _, [], Catalog.replaces_modifyTable ht _, rfl, List.Subset.refl _, rfl,
      fun _ hdrafted => hdrafted.addIndex (Table.declaredColumns_eq_ok hfound).1⟩
  | @alter table t actions s ht hs =>
    obtain ⟨hname, hcolumns⟩ := Staged.keeps_of_actions hs
    obtain ⟨before, after, htables, hafter⟩ := Catalog.replaces_modifyTable ht fun _ => s.table
    refine ⟨t, s.table, s.foreignKeys, ⟨before, after, htables, ?_⟩, hname, hcolumns, rfl,
      fun hsound hdrafted => Staged.drafted_of_actions hsound hdrafted hs⟩
    -- the enumerations of new columns leave the tables alone
    rw [Catalog.tables_addEnums]
    exact hafter

end Sql.TableChange

end CrudGen
