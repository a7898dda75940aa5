import CrudGen.Proofs.Catalog.Arrangement

/-!
# Tables — columns and constraints apart

What the elements of a table make up depends on the columns, on the primary keys among their clauses
and constraints, of which there may be one, and on what each constraint says by itself
(`TableDraft.definition_iff`). A part of a table can therefore be left to an `ALTER TABLE`, which
looks up the same names in the same columns.

Main results:

* `completes_constraints` — constraints can be added later,
* `completes_columns` — so can the last columns, if no constraint names them,
* `completes_default` — and so can the default of a column.
-/

namespace CrudGen

-- ---------------------------------------------------------------------------
-- Columns
-- ---------------------------------------------------------------------------

namespace Column

/-- A column in a table with this key. -/
def marked (key : List String) (c : Column) : Column :=
  if key.contains c.name then { c with primaryKey := true, nullable := false } else c

/-- A column with this default. -/
def withDefault (expression : String) (c : Column) : Column :=
  { c with
    default := some expression
    autoIncrement := c.autoIncrement || Sql.Parser.drawsFromSequence expression }

/-- A column that is marked keeps its name. -/
theorem name_marked (key : List String) (c : Column) : (c.marked key).name = c.name := by
  rw [marked]
  split <;> rfl

/-- A column may be marked before or after its default is set. -/
theorem marked_withDefault (key : List String) (expression : String) (c : Column) :
    (c.withDefault expression).marked key = (c.marked key).withDefault expression := by
  by_cases h : key.contains c.name = true
  · simp only [marked, withDefault, h, if_true]
  · simp only [marked, withDefault, h]
    rfl

end Column

namespace Sql

open Text (sameName)

-- ---------------------------------------------------------------------------
-- Constraints by themselves
-- ---------------------------------------------------------------------------

namespace TableConstraint

/-- The columns of its own table that a constraint names. -/
def columns : TableConstraint → List String
  | .primaryKey columns => columns
  | .unique u => u.columns
  | .foreignKey fk => fk.columns
  | .index i => i.columns
  | .ignored => []

/-- A constraint with these names for its columns. -/
def withColumns (columns : List String) : TableConstraint → TableConstraint
  | .primaryKey _ => .primaryKey columns
  | .unique u => .unique { u with columns }
  | .foreignKey fk => .foreignKey { fk with columns }
  | .index i => .index { i with columns }
  | .ignored => .ignored

def key? : TableConstraint → Option (List String)
  | .primaryKey columns => some columns
  | _ => none

def unique? : TableConstraint → Option UniqueConstraint
  | .unique u => some u
  | _ => none

def index? : TableConstraint → Option Index
  | .index i => some i
  | _ => none

def reference? : TableConstraint → Option PendingForeignKey
  | .foreignKey fk => some fk
  | _ => none

/-- A constraint that is no primary key without columns. -/
def Filled (k : TableConstraint) : Prop :=
  ∀ key ∈ k.key?, key ≠ []

/-- A constraint with the columns that it names in a table, as they are declared there. -/
def DeclaredIn (t : Table) (k k' : TableConstraint) : Prop :=
  ∃ names, t.declaredColumns k.columns = .ok names ∧ k' = k.withColumns names

variable {t t' : Table} {k k' : TableConstraint}

theorem DeclaredIn.congr (h : k.DeclaredIn t k') (hnames : t.columnNames = t'.columnNames) :
    k.DeclaredIn t' k' := by
  obtain ⟨names, hfound, hk'⟩ := h
  exact ⟨names, Table.declaredColumns_congr hnames ▸ hfound, hk'⟩

/-- A constraint with columns declares columns. -/
theorem DeclaredIn.filled (h : k.DeclaredIn t k') (hk : k.Filled) : k'.Filled := by
  obtain ⟨names, hfound, rfl⟩ := h
  cases k with
  | primaryKey columns =>
    rintro _ ⟨⟩ rfl
    exact hk columns rfl (List.forall₂_nil_left_iff.1 (Table.declaredColumns_eq_ok hfound).2)
  | _ => nofun

/-- What is declared names columns of its table. -/
theorem DeclaredIn.subset (h : k.DeclaredIn t k') : k'.columns ⊆ t.columnNames := by
  obtain ⟨names, hfound, rfl⟩ := h
  cases k with
  | ignored => exact List.nil_subset _
  | _ => exact fun n hn => (Table.declaredColumns_eq_ok hfound).1 n hn

end TableConstraint

-- ---------------------------------------------------------------------------
-- Tables of columns and constraints
-- ---------------------------------------------------------------------------

/-- The primary keys that clauses of columns and constraints declare. -/
def keysOf (columns : List Column) (constraints : List TableConstraint) : List (List String) :=
  (columns.filter (·.primaryKey)).map (fun c => [c.name]) ++ constraints.filterMap (·.key?)

/-- The table that columns and constraints make up, before its key is marked. -/
def tableOf (name : String) (columns : List Column) (constraints : List TableConstraint) : Table where
  name := name
  columns := columns
  primaryKey := (keysOf columns constraints).flatten
  uniques := constraints.filterMap (·.unique?)
  indexes := constraints.filterMap (·.index?)

open TableConstraint (withColumns key? unique? index? reference?)
open CrudGen.Sql.Parser (applyConstraint markPrimaryKey requireColumns TableDraft)

variable {name : String} {columns : List Column} {done ks ks' : List TableConstraint}
  {fks : List PendingForeignKey}

/-- Keys of constraints with columns have columns. -/
theorem filled_keysOf (h : ∀ k ∈ done, k.Filled) : ∀ key ∈ keysOf columns done, key ≠ [] := by
  intro key hkey
  rcases List.mem_append.1 hkey with hinline | hdeclared
  · obtain ⟨c, -, rfl⟩ := List.mem_map.1 hinline
    exact List.cons_ne_nil _ _
  · obtain ⟨k, hk, hkey⟩ := List.mem_filterMap.1 hdeclared
    exact h k hk key hkey

/-- A table has a key as soon as one is declared. -/
theorem isEmpty_primaryKey (h : ∀ k ∈ done, k.Filled) :
    (tableOf name columns done).primaryKey.isEmpty = (keysOf columns done).isEmpty := by
  have hfilled : ∀ key ∈ keysOf columns done, key ≠ [] := filled_keysOf h
  change (keysOf columns done).flatten.isEmpty = _
  generalize keysOf columns done = keys at hfilled
  cases keys with
  | nil => rfl
  | cons key rest =>
    obtain ⟨n, more, rfl⟩ := List.exists_cons_of_ne_nil (hfilled key List.mem_cons_self)
    rfl

/-- The keys of constraints in a row are those of both parts. -/
theorem keysOf_append : keysOf columns (done ++ ks) = keysOf columns done ++ ks.filterMap (·.key?) := by
  rw [keysOf, keysOf, List.filterMap_append, List.append_assoc]

/-- More constraints do not give fewer keys. -/
theorem length_keysOf_le :
    (keysOf columns done).length ≤ (keysOf columns (done ++ ks)).length := by
  rw [keysOf_append, List.length_append]
  exact Nat.le_add_right _ _

/-- What a list gives is what its first element gives and then the rest. -/
theorem filterMap_cons_toList {α β : Type} (f : α → Option β) (a : α) (as : List α) :
    (a :: as).filterMap f = (f a).toList ++ as.filterMap f := by
  cases ha : f a <;> simp [ha]

/-- A table with one more constraint is the table with that constraint entered. -/
theorem tableOf_concat (k : TableConstraint) : tableOf name columns (done ++ [k]) =
    { tableOf name columns done with
      primaryKey := (tableOf name columns done).primaryKey ++ k.key?.toList.flatten
      uniques := (tableOf name columns done).uniques ++ k.unique?.toList
      indexes := (tableOf name columns done).indexes ++ k.index?.toList } := by
  simp only [tableOf, keysOf_append, List.filterMap_append, List.flatten_append,
    filterMap_cons_toList, List.filterMap_nil, List.append_nil]

/-- A constraint adds what it says by itself, if there is not one primary key too many. -/
theorem applyConstraint_iff (hdone : ∀ k ∈ done, k.Filled)
    (hkeys : (keysOf columns done).length ≤ 1) {k : TableConstraint}
    {r : Table × List PendingForeignKey} :
    applyConstraint (tableOf name columns done, fks) k = .ok r ↔
      ∃ k', k.DeclaredIn (tableOf name columns []) k' ∧
        (keysOf columns (done ++ [k'])).length ≤ 1 ∧
          r = (tableOf name columns (done ++ [k']), fks ++ k'.reference?.toList) := by
  have hnames : (tableOf name columns []).declaredColumns =
      (tableOf name columns done).declaredColumns := Table.declaredColumns_congr rfl
  have hempty : (tableOf name columns done).primaryKey.isEmpty = (keysOf columns done).isEmpty :=
    isEmpty_primaryKey hdone
  simp only [TableConstraint.DeclaredIn, hnames, tableOf_concat, keysOf_append]
  constructor
  -- columns that are not declared refuse the constraint, and so does a second key
  · intro h
    cases k with
    | primaryKey names =>
      obtain ⟨found, hfound, hset⟩ := ok_of_bind h
      dsimp only at hset
      rw [hempty] at hset
      split at hset
      · cases hset
      · rename_i hnone
        cases hset
        have hnone : keysOf columns done = [] := by simpa using hnone
        refine ⟨_, ⟨found, ok_of_mapError hfound, rfl⟩, ?_, ?_⟩
        · rw [hnone]
          exact Nat.le_refl 1
        · simp [tableOf, hnone, withColumns, key?, unique?, index?, reference?]
    | unique | foreignKey | index =>
      obtain ⟨found, hfound, hset⟩ := ok_of_bind h
      cases hset
      exact ⟨_, ⟨found, ok_of_mapError hfound, rfl⟩, by simpa [withColumns, key?] using hkeys,
        by simp [withColumns, key?, unique?, index?, reference?]⟩
    | ignored =>
      cases h
      exact ⟨.ignored, ⟨[], rfl, rfl⟩, by simpa [key?] using hkeys,
        by simp [key?, unique?, index?, reference?]⟩
  -- conversely, a declared constraint and one key at most are all that is asked
  · rintro ⟨_, ⟨found, hfound, rfl⟩, hone, rfl⟩
    cases k with
    | primaryKey names =>
      have hnone : keysOf columns done = [] := by
        simpa [withColumns, key?, ← List.length_eq_zero_iff] using hone
      simp only [TableConstraint.columns] at hfound
      simp only [applyConstraint, requireColumns, hfound, hempty, hnone]
      simp [tableOf, hnone, withColumns, key?, unique?, index?, reference?, Except.mapError, bind,
        Except.bind, pure, Except.pure]
    | unique | foreignKey | index =>
      simp only [TableConstraint.columns] at hfound
      simp [applyConstraint, requireColumns, hfound, withColumns, key?, unique?, index?, reference?,
        Except.mapError, bind, Except.bind, pure, Except.pure]
    | ignored =>
      simp [applyConstraint, withColumns, key?, unique?, index?, reference?, pure, Except.pure]

/-- Constraints add what each of them says by itself, if they declare one primary key at most. -/
theorem foldlM_applyConstraint_iff (hdone : ∀ k ∈ done, k.Filled)
    (hkeys : (keysOf columns done).length ≤ 1) (hks : ∀ k ∈ ks, k.Filled)
    {r : Table × List PendingForeignKey} :
    ks.foldlM applyConstraint (tableOf name columns done, fks) = .ok r ↔
      ∃ ks', List.Forall₂ (TableConstraint.DeclaredIn (tableOf name columns [])) ks ks' ∧
        (keysOf columns (done ++ ks')).length ≤ 1 ∧
          r = (tableOf name columns (done ++ ks'), fks ++ ks'.filterMap (·.reference?)) := by
  induction ks generalizing done fks with
  | nil =>
    constructor
    · rintro ⟨⟩
      exact ⟨[], .nil, by simpa using hkeys, by simp⟩
    · rintro ⟨_, ⟨⟩, -, rfl⟩
      simp [pure, Except.pure]
  | cons k rest ih =>
    rw [List.forall_mem_cons] at hks
    rw [List.foldlM_cons]
    constructor
    -- the first constraint is taken as it stands, the others by the hypothesis behind it
    · intro h
      obtain ⟨s, hfirst, hrest⟩ := ok_of_bind h
      obtain ⟨k', hk', hone, rfl⟩ := (applyConstraint_iff hdone hkeys).1 hfirst
      have hdone' : ∀ k ∈ done ++ [k'], k.Filled :=
        List.forall_mem_append.2 ⟨hdone, List.forall_mem_singleton.2 (hk'.filled hks.1)⟩
      obtain ⟨ks', hks', hall, rfl⟩ := (ih hdone' hone hks.2).1 hrest
      refine ⟨k' :: ks', .cons hk' hks', ?_, ?_⟩
      · simpa using hall
      · rw [filterMap_cons_toList, List.append_assoc, List.append_assoc]
        rfl
    · rintro ⟨_, hall, hone, rfl⟩
      obtain ⟨k', ks', hk', hks', rfl⟩ := List.forall₂_cons_left_iff.1 hall
      -- no key more in all of them means none more in the first
      rw [List.append_cons] at hone
      have hfirst : (keysOf columns (done ++ [k'])).length ≤ 1 := Nat.le_trans length_keysOf_le hone
      have hdone' : ∀ k ∈ done ++ [k'], k.Filled :=
        List.forall_mem_append.2 ⟨hdone, List.forall_mem_singleton.2 (hk'.filled hks.1)⟩
      rw [(applyConstraint_iff hdone hkeys).2 ⟨k', hk', hfirst, rfl⟩]
      refine (ih hdone' hfirst hks.2).2 ⟨ks', hks', hone, ?_⟩
      rw [filterMap_cons_toList, List.append_assoc, List.append_assoc]
      rfl

/-- What the elements of a table make up. -/
theorem definition_iff {d : TableDraft} {table : String} {ifNotExists : Bool}
    (hks : ∀ k ∈ d.constraints, k.Filled) {t : TableDefinition} :
    d.definition table ifNotExists = .ok t ↔ d.columns ≠ [] ∧ ∃ ks,
      List.Forall₂ (TableConstraint.DeclaredIn (tableOf table d.columns [])) d.constraints ks ∧
        (keysOf d.columns ks).length ≤ 1 ∧ t = {
          table := markPrimaryKey (tableOf table d.columns ks)
          foreignKeys := d.foreignKeys ++ ks.filterMap (·.reference?)
          inlineEnums := d.inlineEnums
          ifNotExists } := by
  -- before any constraint the key is what the columns are marked with
  have hinline : (keysOf d.columns []).flatten =
      (d.columns.filter (·.primaryKey)).map (·.name) := by
    rw [keysOf, List.filterMap_nil, List.append_nil, ← List.flatMap_def, ← List.map_eq_flatMap]
  have hstart : ({
      name := table
      columns := d.columns
      primaryKey := (d.columns.filter (·.primaryKey)).map (·.name) } : Table) =
        tableOf table d.columns [] := by
    rw [tableOf, hinline]
    rfl
  unfold TableDraft.definition
  dsimp only
  rw [hstart]
  -- each failure of `definition` is one of the conditions, one after the other
  constructor
  · intro h
    split at h
    · cases h
    · rename_i hcolumns
      split at h
      · cases h
      · rename_i hkeys
        obtain ⟨r, hall, hmade⟩ := ok_of_bind h
        obtain ⟨ks, hdeclared, hone, rfl⟩ :=
          (foldlM_applyConstraint_iff (by simp) (by simpa [keysOf] using hkeys) hks).1 hall
        cases hmade
        exact ⟨by simpa using hcolumns, ks, hdeclared, hone, rfl⟩
  · rintro ⟨hcolumns, ks, hdeclared, hone, rfl⟩
    have hkeys : (keysOf d.columns []).length ≤ 1 := Nat.le_trans length_keysOf_le hone
    have hall : d.constraints.foldlM applyConstraint (tableOf table d.columns [], d.foreignKeys) =
        .ok _ := (foldlM_applyConstraint_iff (by simp) hkeys hks).2 ⟨ks, hdeclared, hone, rfl⟩
    rw [if_neg (by simpa using hcolumns), if_neg (by simpa [keysOf] using hkeys)]
    change (d.constraints.foldlM applyConstraint (tableOf table d.columns [], d.foreignKeys) >>=
      fun r => _) = _
    rw [hall]
    rfl

-- ---------------------------------------------------------------------------
-- Constraints that are added
-- ---------------------------------------------------------------------------

/-- Without a key, no column is marked. -/
theorem markPrimaryKey_of_none {t : Table} (h : t.primaryKey = []) : markPrimaryKey t = t := by
  cases t
  simp_all [markPrimaryKey]

/-- A constraint that is added does what it does among the elements of its table. -/
theorem act_constraint {k k' : TableConstraint} (hk : k.DeclaredIn (tableOf name columns []) k')
    (hone : (keysOf columns (done ++ [k'])).length ≤ 1) :
    (Parser.TableConstraint.action? k).toList.foldlM Staged.act {
      table := markPrimaryKey (tableOf name columns done), foreignKeys := fks } = .ok {
        table := markPrimaryKey (tableOf name columns (done ++ [k']))
        foreignKeys := fks ++ k'.reference?.toList } := by
  obtain ⟨found, hfound, rfl⟩ := hk
  have hnames : (markPrimaryKey (tableOf name columns done)).declaredColumns =
      (tableOf name columns []).declaredColumns :=
    Table.declaredColumns_congr Table.columnNames_markPrimaryKey
  rw [← hnames] at hfound
  rw [tableOf_concat]
  -- an action does to the finished table what the constraint does to the one in the making
  cases k with
  | primaryKey names =>
    have hnone : keysOf columns done = [] := by
      rw [keysOf_append] at hone
      simpa [withColumns, key?, ← List.length_eq_zero_iff] using hone
    have hkey : (tableOf name columns done).primaryKey = [] := by simp [tableOf, hnone]
    rw [markPrimaryKey_of_none hkey] at hfound ⊢
    simp only [TableConstraint.columns] at hfound
    simp [Parser.TableConstraint.action?, Staged.act, Table.requireColumns, hfound, hkey, withColumns,
      key?, unique?, index?, reference?, Except.mapError, bind, Except.bind, pure, Except.pure]
  | unique | index =>
    simp only [TableConstraint.columns] at hfound
    simp [Parser.TableConstraint.action?, Staged.act, Table.requireColumns, hfound, withColumns, key?,
      unique?, index?, reference?, Except.mapError, bind, Except.bind, pure, Except.pure]
    rfl
  | foreignKey =>
    simp only [TableConstraint.columns] at hfound
    simp [Parser.TableConstraint.action?, Staged.act, Table.requireColumns, hfound, withColumns, key?,
      unique?, index?, reference?, Except.mapError, bind, Except.bind, pure, Except.pure]
  | ignored =>
    simp [Parser.TableConstraint.action?, withColumns, key?, unique?, index?, reference?, pure,
      Except.pure]

/-- Constraints that are added later are entered as if they had been declared, if there is one key
at most. -/
theorem act_constraints {moved moved' : List TableConstraint}
    (h : List.Forall₂ (TableConstraint.DeclaredIn (tableOf name columns [])) moved moved')
    (hone : (keysOf columns (done ++ moved')).length ≤ 1) :
    (moved.filterMap Parser.TableConstraint.action?).foldlM Staged.act {
      table := markPrimaryKey (tableOf name columns done), foreignKeys := fks } = .ok {
        table := markPrimaryKey (tableOf name columns (done ++ moved'))
        foreignKeys := fks ++ moved'.filterMap (·.reference?) } := by
  induction h generalizing done fks with
  | nil => simp [pure, Except.pure]
  | @cons k k' rest rest' hk _ ih =>
    rw [List.append_cons] at hone
    rw [filterMap_cons_toList, List.foldlM_append,
      act_constraint hk (Nat.le_trans length_keysOf_le hone), filterMap_cons_toList,
      List.append_cons done k' rest', ← List.append_assoc]
    exact ih hone

/-- Two orders of one element at most are the same. -/
theorem eq_of_perm_of_length {α : Type} {as bs : List α} (h : as.Perm bs) (hone : as.length ≤ 1) :
    as = bs := by
  match as with
  | [] => exact h.nil_eq
  | [a] => exact List.singleton_perm.1 h
  | _ :: _ :: _ => exact absurd hone (by simp)

/-- The order of constraints matters to the order of what they add only. -/
theorem rearranged_markPrimaryKey (hperm : ks.Perm ks') (hone : (keysOf columns ks).length ≤ 1) :
    (markPrimaryKey (tableOf name columns ks)).Rearranged
      (markPrimaryKey (tableOf name columns ks')) := by
  have hkeys : keysOf columns ks = keysOf columns ks' :=
    eq_of_perm_of_length ((hperm.filterMap _).append_left _) hone
  refine ⟨rfl, ?_, ?_, hperm.filterMap _, hperm.filterMap _, .refl _⟩
  · simp only [markPrimaryKey, tableOf, hkeys]
    rfl
  · simp only [markPrimaryKey, tableOf, hkeys]

/-- Lists in two parts are related part by part. -/
theorem forall₂_append {α β : Type} {R : α → β → Prop} {as bs : List α} {cs : List β}
    (h : List.Forall₂ R (as ++ bs) cs) :
    ∃ as' bs', List.Forall₂ R as as' ∧ List.Forall₂ R bs bs' ∧ cs = as' ++ bs' :=
  ⟨cs.take as.length, cs.drop as.length, (List.forall₂_take_append _ _ _ h.flip).flip,
    (List.forall₂_drop_append _ _ _ h.flip).flip, (List.take_append_drop _ _).symm⟩

/-- **Constraints.** A table may be created with some of its constraints, in any order, and the
others added to it. -/
theorem completes_constraints {d : TableDraft} {table : String} {ifNotExists : Bool}
    {kept moved : List TableConstraint} (hks : ∀ k ∈ d.constraints, k.Filled)
    (hperm : d.constraints.Perm (kept ++ moved)) {whole : TableDefinition}
    (h : d.definition table ifNotExists = .ok whole) :
    ∃ part, ({ d with constraints := kept } : TableDraft).definition table ifNotExists = .ok part ∧
      part.Completes (moved.filterMap Parser.TableConstraint.action?) whole := by
  obtain ⟨hcolumns, ks, hdeclared, hone, rfl⟩ := (definition_iff hks).1 h
  -- what is declared is told apart into what stays and what moves
  obtain ⟨ks', hdeclared', hperm'⟩ := List.perm_comp_forall₂ hperm.symm hdeclared
  obtain ⟨kept', moved', hkept, hmoved, rfl⟩ := forall₂_append hdeclared'
  have hkeys : (keysOf d.columns ks).Perm (keysOf d.columns (kept' ++ moved')) :=
    (hperm'.symm.filterMap _).append_left _
  have hone' : (keysOf d.columns (kept' ++ moved')).length ≤ 1 := hkeys.length_eq ▸ hone
  have hkeptFilled : ∀ k ∈ kept, k.Filled := fun k hk =>
    hks k (hperm.mem_iff.2 (List.mem_append_left _ hk))
  have hpart : ({ d with constraints := kept } : TableDraft).definition table ifNotExists = .ok _ :=
    (definition_iff hkeptFilled).2
      ⟨hcolumns, kept', hkept, Nat.le_trans length_keysOf_le hone', rfl⟩
  refine ⟨_, hpart, rfl, rfl, _, act_constraints hmoved hone', rfl, ?_, ?_⟩
  · exact rearranged_markPrimaryKey hperm'.symm hone
  · dsimp only
    rw [List.append_assoc, List.nil_append, ← List.filterMap_append]
    exact (hperm'.symm.filterMap _).append_left _

-- ---------------------------------------------------------------------------
-- Columns that are added
-- ---------------------------------------------------------------------------

variable {added : List ColumnDefinition}

/-- Columns that nobody asks for do not matter to what is found. -/
theorem declaredColumns_of_unnamed {t t' : Table} {more : List Column} {names : List String}
    (ht : t'.columns = t.columns ++ more) (h : ∀ n ∈ names, ∀ c ∈ more, sameName c.name n = false) :
    t'.declaredColumns names = t.declaredColumns names := by
  induction names with
  | nil => rfl
  | cons n rest ih =>
    rw [List.forall_mem_cons] at h
    have hnone : more.find? (fun c => sameName c.name n) = none := by
      rw [List.find?_eq_none]
      exact fun c hc => by simp [h.1 c hc]
    have hfound : t'.column? n = t.column? n := by
      rw [Table.column?, Table.column?, ht, List.find?_append, hnone, Option.or_none]
    rw [Table.declaredColumns, Table.declaredColumns, hfound, ih h.2]

/-- The key of a table is made of names of its columns. -/
theorem mem_of_mem_primaryKey {n : String}
    (hks : List.Forall₂ (TableConstraint.DeclaredIn (tableOf name columns [])) ks ks')
    (hn : n ∈ (tableOf name columns ks').primaryKey) : n ∈ columns.map (·.name) := by
  obtain ⟨key, hkey, hn⟩ := List.mem_flatten.1 hn
  rcases List.mem_append.1 hkey with hinline | hdeclared
  · obtain ⟨c, hc, rfl⟩ := List.mem_map.1 hinline
    rw [List.mem_singleton.1 hn]
    exact List.mem_map_of_mem (List.mem_of_mem_filter hc)
  · obtain ⟨k', hk', hkey⟩ := List.mem_filterMap.1 hdeclared
    have hnamed : ∀ k' ∈ ks', k'.columns ⊆ columns.map (·.name) :=
      ((List.forall₂_and_left _ _).1 (hks.flip.imp fun _ _ h =>
        ⟨TableConstraint.DeclaredIn.subset h, h⟩)).1
    cases k' <;> cases hkey
    exact hnamed _ hk' hn

/-- Columns that are added later stand behind the others, if their names are new. -/
theorem act_columns {t : Table} {fks : List PendingForeignKey}
    (hdistinct : DistinctNames (t.columnNames ++ added.map (·.column.name)))
    (henums : ∀ c ∈ added, c.inlineEnum = none) :
    (added.map AlterAction.addColumn).foldlM Staged.act { table := t, foreignKeys := fks } = .ok {
      table := { t with columns := t.columns ++ added.map (·.column) }
      foreignKeys := fks ++ added.flatMap (·.foreignKey.toList) } := by
  induction added generalizing t fks with
  | nil => simp [pure, Except.pure]
  | cons c rest ih =>
    rw [List.forall_mem_cons] at henums
    -- the name is new, as the names of all are distinct
    have hnew : t.hasColumn c.column.name = false := by
      rw [Table.hasColumn_eq_false_iff]
      exact fun n hn => (List.pairwise_append.1 hdistinct).2.2 n hn _ List.mem_cons_self
    have hfirst : Staged.act { table := t, foreignKeys := fks } (.addColumn c) = .ok {
        table := { t with columns := t.columns ++ [c.column] }
        foreignKeys := fks ++ c.foreignKey.toList } := by
      simp [Staged.act, hnew, henums.1, pure, Except.pure]
    rw [List.map_cons, List.foldlM_cons, hfirst]
    refine (ih (t := { t with columns := t.columns ++ [c.column] }) ?_ henums.2).trans ?_
    · simpa [Table.columnNames] using hdistinct
    · simp

/-- Marking the key marks each column by itself. -/
theorem markPrimaryKey_columns (t : Table) :
    (markPrimaryKey t).columns = t.columns.map (Column.marked t.primaryKey) :=
  rfl

/-- Columns that the key does not name are not marked. -/
theorem map_marked_of_unnamed {key : List String} {columns : List Column}
    (h : ∀ c ∈ columns, c.name ∉ key) : columns.map (Column.marked key) = columns := by
  refine (List.map_congr_left fun c hc => ?_).trans (List.map_id _)
  rw [Column.marked, if_neg (by simpa using h c hc)]
  rfl

/-- **Columns.** A table may be created without its last columns, and these added to it, if no
constraint names them. -/
theorem completes_columns {d : TableDraft} {table : String} {ifNotExists : Bool}
    (hks : ∀ k ∈ d.constraints, k.Filled) (hcolumns : d.columns ≠ [])
    (hdistinct : DistinctNames ((d.columns ++ added.map (·.column)).map (·.name)))
    (hkey : ∀ c ∈ added, c.column.primaryKey = false) (henum : ∀ c ∈ added, c.inlineEnum = none)
    (hunnamed : ∀ k ∈ d.constraints, ∀ n ∈ k.columns, ∀ c ∈ added,
      sameName c.column.name n = false) {whole : TableDefinition}
    (h : ({ d with
      columns := d.columns ++ added.map (·.column)
      foreignKeys := d.foreignKeys ++ added.flatMap (·.foreignKey.toList) } :
        TableDraft).definition table ifNotExists = .ok whole) :
    ∃ part, d.definition table ifNotExists = .ok part ∧
      part.Completes (added.map .addColumn) whole := by
  obtain ⟨-, ks, hdeclared, hone, rfl⟩ := (definition_iff (d := { d with
    columns := d.columns ++ added.map (·.column)
    foreignKeys := d.foreignKeys ++ added.flatMap (·.foreignKey.toList) }) hks).1 h
  dsimp only at hdeclared hone
  -- constraints are declared in the columns that stay
  have hdeclared' : List.Forall₂ (TableConstraint.DeclaredIn (tableOf table d.columns []))
      d.constraints ks := by
    have hboth := (List.forall₂_and_left _ _).2 ⟨hunnamed, hdeclared⟩
    refine hboth.imp fun k k' ⟨hk, names, hfound, hk'⟩ => ⟨names, ?_, hk'⟩
    rw [← hfound]
    have hunnamed : ∀ n ∈ k.columns, ∀ c ∈ added.map (·.column), sameName c.name n = false :=
      fun n hn => List.forall_mem_map.2 (hk n hn)
    exact (declaredColumns_of_unnamed rfl hunnamed).symm
  have hkeys : keysOf (d.columns ++ added.map (·.column)) ks = keysOf d.columns ks := by
    have hnone : (added.map (·.column)).filter (·.primaryKey) = [] := by
      simpa using hkey
    rw [keysOf, keysOf, List.filter_append, hnone, List.append_nil]
  have hpart : d.definition table ifNotExists = .ok _ :=
    (definition_iff hks).2 ⟨hcolumns, ks, hdeclared', hkeys ▸ hone, rfl⟩
  rw [List.map_append] at hdistinct
  have hnotKey : ∀ c ∈ added.map (·.column), c.name ∉ (keysOf d.columns ks).flatten := by
    intro c hc hmem
    have hold := mem_of_mem_primaryKey hdeclared' hmem
    have hdiffers := (List.pairwise_append.1 hdistinct).2.2 c.name hold c.name
      (List.mem_map_of_mem hc)
    rw [sameName_self] at hdiffers
    cases hdiffers
  have hmarked : markPrimaryKey (tableOf table (d.columns ++ added.map (·.column)) ks) =
      { markPrimaryKey (tableOf table d.columns ks) with
        columns := (markPrimaryKey (tableOf table d.columns ks)).columns ++
          added.map (·.column) } := by
    simp only [markPrimaryKey, tableOf, hkeys]
    refine congrArg (fun columns => { markPrimaryKey (tableOf table d.columns ks) with columns }) ?_
    exact List.map_append.trans (congrArg _ (map_marked_of_unnamed hnotKey))
  refine ⟨_, hpart, rfl, rfl, _, act_columns ?_ henum, rfl, ?_, ?_⟩
  · rw [Table.columnNames_markPrimaryKey]
    rw [List.map_map] at hdistinct
    exact hdistinct
  · rw [hmarked]
    exact .refl _
  · dsimp only
    rw [List.nil_append, List.append_assoc, List.append_assoc]
    exact List.perm_append_comm.append_left _

-- ---------------------------------------------------------------------------
-- Defaults that are set
-- ---------------------------------------------------------------------------

/-- A default is no key. -/
theorem keysOf_withDefault (before after : List Column) (c : Column) (expression : String) :
    keysOf (before ++ c.withDefault expression :: after) ks = keysOf (before ++ c :: after) ks := by
  simp only [keysOf, List.filter_append, List.filter_cons, Column.withDefault]
  split <;> simp

/-- **Defaults.** A table may be created without the default of a column, and this set later. -/
theorem completes_default {d : TableDraft} {table : String} {ifNotExists : Bool}
    {before after : List Column} {c : Column} {expression : String}
    (hks : ∀ k ∈ d.constraints, k.Filled)
    (hdistinct : DistinctNames ((before ++ c :: after).map (·.name))) {whole : TableDefinition}
    (h : ({ d with columns := before ++ c.withDefault expression :: after } :
      TableDraft).definition table ifNotExists = .ok whole) :
    ∃ part, ({ d with columns := before ++ c :: after } : TableDraft).definition table
        ifNotExists = .ok part ∧
      part.Completes [.setDefault c.name expression] whole := by
  obtain ⟨-, ks, hdeclared, hone, rfl⟩ := (definition_iff (d := { d with
    columns := before ++ c.withDefault expression :: after }) hks).1 h
  dsimp only at hdeclared hone
  have hnames : (tableOf table (before ++ c.withDefault expression :: after) []).columnNames =
      (tableOf table (before ++ c :: after) []).columnNames := by
    simp [Table.columnNames, tableOf, Column.withDefault]
  have hdeclared' := hdeclared.imp fun _ _ hk => TableConstraint.DeclaredIn.congr hk hnames
  rw [keysOf_withDefault] at hone
  have hpart : ({ d with columns := before ++ c :: after } : TableDraft).definition table
      ifNotExists = .ok _ :=
    (definition_iff (d := { d with columns := before ++ c :: after }) hks).2
      ⟨by simp, ks, hdeclared', hone, rfl⟩
  -- the key is the same with and without the default, and so are the columns it marks
  let key := (keysOf (before ++ c :: after) ks).flatten
  let part := markPrimaryKey (tableOf table (before ++ c :: after) ks)
  have hcolumns : part.columns = before.map (Column.marked key) ++
      Column.marked key c :: after.map (Column.marked key) := by
    rw [markPrimaryKey_columns]
    exact List.map_append
  have hfound : part.hasColumn c.name = true := by
    rw [Table.hasColumn, Table.column?, hcolumns, List.isSome_find?, List.any_append, List.any_cons,
      Column.name_marked, sameName_self]
    simp
  -- the column of that name is the one given the default, as no other is called so
  have hset : modifyFirst (fun other => sameName other.name c.name) (Column.withDefault expression)
      part.columns = before.map (Column.marked key) ++
        (Column.marked key c).withDefault expression :: after.map (Column.marked key) := by
    rw [hcolumns]
    refine modifyFirst_append ?_ ?_ _
    · rw [Column.name_marked]
      exact sameName_self _
    · rw [List.map_append] at hdistinct
      rw [List.forall_mem_map]
      intro b hb
      rw [Column.name_marked, Bool.not_eq_true]
      exact (List.pairwise_append.1 hdistinct).2.2 b.name (List.mem_map_of_mem hb) c.name
        List.mem_cons_self
  have hact : [AlterAction.setDefault c.name expression].foldlM Staged.act { table := part } =
      .ok { table := { part with columns := before.map (Column.marked key) ++
        (Column.marked key c).withDefault expression :: after.map (Column.marked key) } } := by
    rw [← hset]
    simp [Staged.act, hfound, bind, Except.bind, pure, Except.pure]
    rfl
  refine ⟨_, hpart, rfl, rfl, _, hact, rfl, ?_, by simp⟩
  -- marking the key first and giving the default then comes to the same
  have hmarked : markPrimaryKey (tableOf table (before ++ c.withDefault expression :: after) ks) =
      { part with columns := before.map (Column.marked key) ++
        (Column.marked key c).withDefault expression :: after.map (Column.marked key) } := by
    simp only [markPrimaryKey, tableOf, keysOf_withDefault, part]
    refine congrArg (fun columns => { part with columns }) ?_
    refine List.map_append.trans (congrArg _ ?_)
    rw [List.map_cons]
    exact congrArg (· :: _) (Column.marked_withDefault key expression c)
  rw [hmarked]
  exact .refl _

end Sql

end CrudGen
