import CrudGen.Proofs.Catalog.Referential

/-!
# Catalogs — what becomes of a reference

`acceptedReferences` are the references that accepted statements ask for: those of the definitions
that the first pass keeps, then those of the changes that the second pass applies. `Fate` is where a
reference ends up, reported or stored.

Main result:

* `settles_ofStatements` — the references have one fate each, and what is reported and what is
  stored in each table are these fates in order.
-/

namespace CrudGen

open Text (sameName)
open Sql (AlterAction Dialect PendingForeignKey Statement TableChange TableDefinition Token)

-- ---------------------------------------------------------------------------
-- References that are asked for
-- ---------------------------------------------------------------------------

/-- The references of a definition, with its table. -/
def Sql.TableDefinition.references (t : TableDefinition) : List (String × PendingForeignKey) :=
  t.foreignKeys.map fun fk => (t.table.name, fk)

/-- The reference of an action: that of a column, or one of its own. -/
def Sql.AlterAction.reference? : AlterAction → Option PendingForeignKey
  | .addColumn d => d.foreignKey
  | .addForeignKey fk => some fk
  | _ => none

/-- The references of a change, with its table. -/
def Sql.TableChange.references : TableChange → List (String × PendingForeignKey)
  | .index _ _ => []
  | .alter table actions => (actions.flatMap (·.reference?.toList)).map fun fk => (table, fk)

namespace Draft

/-- The references of a statement in the first pass, if it defines a table that is new. -/
def definedReferences (d : Draft) (dialect : Dialect) (tokens : List Token) :
    List (String × PendingForeignKey) :=
  match Statement.parse dialect tokens with
  | .ok (.createTable t) =>
    if (d.catalog.table? t.table.name).isSome then [] else t.references
  | _ => []

/-- The references of a change in the second pass, if it applies. -/
def changedReferences (d : Draft) (c : TableChange) : List (String × PendingForeignKey) :=
  match CrudGen.TableChange.apply d.catalog c with
  | .ok _ => c.references
  | .error _ => []

/-- The references that a first pass accepts. -/
def allDefinedReferences (dialect : Dialect) :
    Draft → List (Origin × List Token) → List (String × PendingForeignKey)
  | _, [] => []
  | d, (o, tokens) :: rest =>
    d.definedReferences dialect tokens ++
      allDefinedReferences dialect (d.addTokens dialect o tokens) rest

/-- The references that a second pass accepts. -/
def allChangedReferences : Draft → List (Origin × TableChange) → List (String × PendingForeignKey)
  | _, [] => []
  | d, (o, c) :: rest => d.changedReferences c ++ allChangedReferences (d.applyChange o c) rest

end Draft

/-- The references that accepted statements ask for, as they are written. -/
def acceptedReferences (dialect : Dialect) (statements : List (Origin × List Token)) :
    List (String × PendingForeignKey) :=
  let d := ({} : Draft).addAll dialect statements
  Draft.allDefinedReferences dialect {} statements ++ d.allChangedReferences d.changes

/-- A reference is kept as it was asked for, but for the spelling of its columns. -/
def KeptAs (asked kept : PendingForeignKey) : Prop :=
  SameNames kept.columns asked.columns ∧ kept = { asked with columns := kept.columns }

theorem KeptAs.refl (fk : PendingForeignKey) : KeptAs fk fk :=
  ⟨.refl _, rfl⟩

/-- A reference is kept as it was asked for, under the declared name of its table. -/
def KeptIn (asked kept : String × PendingForeignKey) : Prop :=
  sameName kept.1 asked.1 = true ∧ KeptAs asked.2 kept.2

theorem KeptIn.refl (ref : String × PendingForeignKey) : KeptIn ref ref :=
  ⟨sameName_self _, .refl _⟩

/-- The references of a statement stand behind those that wait already. -/
theorem pending_addTokens (d : Draft) (dialect : Dialect) (o : Origin) (tokens : List Token) :
    (d.addTokens dialect o tokens).pending = d.pending ++ d.definedReferences dialect tokens := by
  -- only the definition of a new table has references that wait
  unfold Draft.addTokens Draft.definedReferences
  cases hparse : Statement.parse dialect tokens with
  | error e => simp [Draft.addError]
  | ok s =>
    cases s with
    | createTable t =>
      by_cases htable : (d.catalog.table? t.table.name).isSome
      · by_cases hif : t.ifNotExists <;>
          simp [Draft.add, Draft.addTable, Draft.addError, htable, hif]
      · simp [Draft.add, Draft.addTable, htable, Sql.TableDefinition.references]
    | change c => simp [Draft.add]
    | createSequence s => simp [Draft.add]
    | createEnum e => simp [Draft.add]
    | skipped => simp [Draft.add]

/-- The first pass keeps the references that it accepts as they are. -/
theorem pending_addAll (d : Draft) (dialect : Dialect) (statements : List (Origin × List Token)) :
    (d.addAll dialect statements).pending =
      d.pending ++ d.allDefinedReferences dialect statements := by
  induction statements generalizing d with
  | nil => simp [Draft.addAll, Draft.allDefinedReferences]
  | cons s rest ih =>
    change ((d.addTokens dialect s.1 s.2).addAll dialect rest).pending = _
    rw [ih, pending_addTokens, List.append_assoc]
    rfl

/-- An action keeps its reference, if it has one, with the columns of the table. -/
theorem keptAs_of_action {s s' : Staged} {a : AlterAction} (h : s.Act a s') :
    ∃ kept, s'.foreignKeys = s.foreignKeys ++ kept ∧
      List.Forall₂ KeptAs a.reference?.toList kept := by
  cases h with
  | @addColumn d hnew =>
    exact ⟨d.foreignKey.toList, rfl, List.forall₂_same.2 fun fk _ => .refl fk⟩
  | @addForeignKey fk columns hfound =>
    exact ⟨[{ fk with columns }], rfl, .cons ⟨(Table.declaredColumns_eq_ok hfound).2, rfl⟩ .nil⟩
  | addUnique | addPrimaryKey | addIndex | setDefault =>
    exact ⟨[], (List.append_nil _).symm, .nil⟩

theorem keptAs_of_actions {actions : List AlterAction} {s s' : Staged}
    (h : actions.foldlM Staged.act s = .ok s') :
    ∃ kept, s'.foreignKeys = s.foreignKeys ++ kept ∧
      List.Forall₂ KeptAs (actions.flatMap (·.reference?.toList)) kept := by
  -- induction on the actions, from each staged table to the next
  induction actions generalizing s with
  | nil =>
    cases h
    exact ⟨[], (List.append_nil _).symm, .nil⟩
  | cons a rest ih =>
    rw [List.foldlM_cons] at h
    obtain ⟨s₁, hfirst, hrest⟩ := ok_of_bind h
    obtain ⟨kept, hs₁, hkept⟩ := keptAs_of_action (Staged.act_cases hfirst)
    obtain ⟨kept', hs', hkept'⟩ := ih hrest
    refine ⟨kept ++ kept', ?_, ?_⟩
    · rw [hs', hs₁, List.append_assoc]
    · rw [List.flatMap_cons]
      exact List.rel_append hkept hkept'

/-- A change that applies keeps its references. -/
theorem keptIn_of_applied {c c' : Catalog} {change : TableChange}
    {refs : List (String × PendingForeignKey)} (h : TableChange.Applied c change (c', refs)) :
    List.Forall₂ KeptIn change.references refs := by
  cases h with
  | expressions | index => exact .nil
  | @alter table t actions s ht hs =>
    obtain ⟨kept, hkept, hsame⟩ := keptAs_of_actions hs
    have hname : sameName s.table.name table = true := by
      rw [(Staged.keeps_of_actions hs).1]
      exact (Catalog.mem_of_table? ht).2
    rw [List.nil_append] at hkept
    rw [TableChange.references, hkept, List.forall₂_map_left_iff, List.forall₂_map_right_iff]
    exact hsame.imp fun _ _ hfk => ⟨hname, hfk⟩

/-- A change that is accepted keeps its references, and one that is not keeps none. -/
theorem pending_applyChange (d : Draft) (o : Origin) (c : TableChange) :
    ∃ refs, (d.applyChange o c).pending = d.pending ++ refs ∧
      List.Forall₂ KeptIn (d.changedReferences c) refs := by
  unfold Draft.applyChange Draft.changedReferences
  cases happly : CrudGen.TableChange.apply d.catalog c with
  | error m => exact ⟨[], (List.append_nil _).symm, .nil⟩
  | ok r => exact ⟨r.2, rfl, keptIn_of_applied (TableChange.apply_cases happly)⟩

theorem pending_applyChanges (d : Draft) (changes : List (Origin × TableChange)) :
    ∃ refs, (d.applyChanges changes).pending = d.pending ++ refs ∧
      List.Forall₂ KeptIn (d.allChangedReferences changes) refs := by
  induction changes generalizing d with
  | nil => exact ⟨[], (List.append_nil _).symm, .nil⟩
  | cons c rest ih =>
    obtain ⟨refs, hfirst, hkept⟩ := pending_applyChange d c.1 c.2
    obtain ⟨refs', hrest, hkept'⟩ := ih (d.applyChange c.1 c.2)
    refine ⟨refs ++ refs', ?_, List.rel_append hkept hkept'⟩
    rw [← List.append_assoc, ← hfirst]
    exact hrest

/-- The references that wait in the end are those that were accepted. -/
theorem pending_of_accepted (dialect : Dialect) (statements : List (Origin × List Token)) :
    let d := ({} : Draft).addAll dialect statements
    List.Forall₂ KeptIn (acceptedReferences dialect statements)
      (d.applyChanges d.changes).pending := by
  intro d
  obtain ⟨refs, hpending, hkept⟩ := pending_applyChanges d d.changes
  rw [hpending, pending_addAll]
  exact List.rel_append (List.forall₂_same.2 fun ref _ => .refl ref) hkept

-- ---------------------------------------------------------------------------
-- References that are followed
-- ---------------------------------------------------------------------------

/-- Where a reference ends up: reported, or stored in a table. -/
inductive Fate where
  | reported (u : UnresolvedReference)
  | stored (table : String) (fk : ForeignKey)

namespace Fate

/-- The report of a fate. -/
def reported? : Fate → Option UnresolvedReference
  | .reported u => some u
  | .stored _ _ => none

/-- The foreign key of a fate, if it is stored in that table. -/
def storedIn? (name : String) : Fate → Option ForeignKey
  | .reported _ => none
  | .stored table fk => if table = name then some fk else none

end Fate

/-- A fate of a reference: it is reported under its table, its columns and its target, or stored in
its table with all that was asked for. -/
inductive FateOf (ref : String × PendingForeignKey) : Fate → Prop
  | reported {u} (htable : sameName u.table ref.1 = true)
      (hcolumns : SameNames u.columns ref.2.columns) (htarget : u.target = ref.2.targetTable) :
      FateOf ref (.reported u)
  | stored {table fk} (htable : sameName table ref.1 = true)
      (hcolumns : SameNames fk.columns ref.2.columns)
      (htarget : sameName fk.targetTable ref.2.targetTable = true)
      (htargetColumns : ∀ asked ∈ ref.2.targetColumns, SameNames fk.targetColumns asked)
      (hrest : fk.name = ref.2.name ∧ fk.onDelete = ref.2.onDelete ∧ fk.onUpdate = ref.2.onUpdate) :
      FateOf ref (.stored table fk)

/-- The fate of a reference is that of what is kept of it. -/
theorem FateOf.of_keptIn {asked kept : String × PendingForeignKey} {fate : Fate}
    (hkept : KeptIn asked kept) (h : FateOf kept fate) : FateOf asked fate := by
  obtain ⟨table, fk⟩ := kept
  obtain ⟨hname, hspelled, hsame⟩ := hkept
  dsimp only at hname hspelled hsame
  rw [hsame] at h
  cases h with
  | reported htable hcolumns htarget =>
    exact .reported (sameName_trans htable hname) (hcolumns.trans hspelled) htarget
  | stored htable hcolumns htarget htargetColumns hrest =>
    exact .stored (sameName_trans htable hname) (hcolumns.trans hspelled) htarget htargetColumns
      hrest

/-- The fates of references are those of what is kept of them. -/
theorem fatesOf_of_keptIn {asked kept : List (String × PendingForeignKey)} {fates : List Fate}
    (hkept : List.Forall₂ KeptIn asked kept) (h : List.Forall₂ FateOf kept fates) :
    List.Forall₂ FateOf asked fates := by
  induction hkept generalizing fates with
  | nil => exact h
  | cons href _ ih =>
    obtain ⟨fate, rest, hfate, hrest, rfl⟩ := List.forall₂_cons_left_iff.1 h
    exact .cons (.of_keptIn href hfate) (ih hrest)

/-- The tables of a catalog with what fates store in them. -/
def storing (tables : List Table) (fates : List Fate) : List Table :=
  tables.map fun t =>
    { t with foreignKeys := t.foreignKeys ++ fates.filterMap (Fate.storedIn? t.name) }

/-- Where nothing has been decided, nothing is stored. -/
theorem storing_nil (tables : List Table) : storing tables [] = tables := by
  simp [storing]

/-- Fates are stored in order, part by part. -/
theorem storing_append (tables : List Table) (fates fates' : List Fate) :
    storing tables (fates ++ fates') = storing (storing tables fates) fates' := by
  simp [storing, Function.comp_def]

/-- Changing the table of a name changes that table, since no other has the name. -/
theorem Catalog.modifyTable_of_mem {c : Catalog} {t : Table}
    (hdistinct : DistinctNames (c.tables.map (·.name))) (ht : t ∈ c.tables) (f : Table → Table) :
    (c.modifyTable t.name f).tables = c.tables.map fun u => if t.name = u.name then f u else u := by
  -- the name is found first at this table, and no other table has it
  obtain ⟨before, after, htables, hmodified⟩ := replaces_modifyTable (table?_of_mem hdistinct ht) f
  have hnodup := hdistinct.nodup
  rw [htables, List.map_append, List.map_cons, List.nodup_append, List.nodup_cons] at hnodup
  obtain ⟨-, ⟨hafter, -⟩, hbefore⟩ := hnodup
  have hkeep {us : List Table} (hus : ∀ u ∈ us, t.name ≠ u.name) :
      us.map (fun u => if t.name = u.name then f u else u) = us := by
    rw [List.map_congr_left fun u hu => if_neg (hus u hu), List.map_id']
  rw [hmodified, htables, List.map_append, List.map_cons, if_pos rfl, hkeep, hkeep]
  · rintro u hu heq
    exact hafter (heq ▸ List.mem_map_of_mem hu)
  · rintro u hu heq
    exact hbefore u.name (List.mem_map_of_mem hu) t.name List.mem_cons_self heq.symm

/-- The fate of a reference in a catalog. -/
def fateIn (c : Catalog) (ref : String × PendingForeignKey) : Fate :=
  match PendingForeignKey.resolve c ref.2 with
  | .ok fk => .stored ref.1 fk
  | .error dangling => .reported {
      table := ref.1
      columns := ref.2.columns
      target := ref.2.targetTable
      reason := dangling.message }

/-- A reference becomes a foreign key, or is unresolved with a reason. -/
theorem fateOf_fateIn (c : Catalog) (ref : String × PendingForeignKey) :
    FateOf ref (fateIn c ref) := by
  unfold fateIn
  split
  · rename_i fk hresolve
    obtain ⟨target, targetColumns, htarget, -, -, hfound, hr⟩ := resolve_eq_ok hresolve
    subst hr
    refine .stored (sameName_self _) (.refl _) (Catalog.mem_of_table? htarget).2 ?_ ⟨rfl, rfl, rfl⟩
    intro asked hasked
    rw [Option.mem_def.1 hasked] at hfound
    exact (Table.declaredColumns_eq_ok hfound).2
  · exact .reported (sameName_self _) (.refl _) rfl

/-- What is stored goes to the table that the reference stands in. -/
theorem table_of_fateIn {c : Catalog} {ref : String × PendingForeignKey} {table : String}
    {fk : ForeignKey} (h : fateIn c ref = .stored table fk) : table = ref.1 := by
  unfold fateIn at h
  split at h <;> cases h
  rfl

/-- Foreign keys are no columns. -/
theorem Table.declaredColumns_setForeignKeys (t : Table) (foreignKeys : List ForeignKey)
    (names : List String) :
    ({ t with foreignKeys } : Table).declaredColumns names = t.declaredColumns names := by
  induction names with
  | nil => rfl
  | cons name rest ih =>
    rw [declaredColumns, declaredColumns, ih]
    rfl

/-- Foreign keys that tables store do not matter to the fates of others. -/
theorem fateIn_storing {c c' : Catalog} {fates : List Fate}
    (h : c'.tables = storing c.tables fates) : fateIn c' = fateIn c := by
  have htable (name : String) : c'.table? name = (c.table? name).map fun t =>
      { t with foreignKeys := t.foreignKeys ++ fates.filterMap (Fate.storedIn? t.name) } := by
    rw [Catalog.table?, h, storing, List.find?_map]
    rfl
  funext ref
  unfold fateIn PendingForeignKey.resolve
  rw [htable]
  cases c.table? ref.2.targetTable with
  | none => rfl
  | some t => simp only [Option.map_some, Table.declaredColumns_setForeignKeys]

/-- Following a reference that stands in the catalog gives it its fate. -/
theorem follow_fate {x : Extraction} (h : x.catalog.Referential) {ref : String × PendingForeignKey}
    (href : StandsInCatalog x.catalog ref) :
    (Draft.follow x ref.1 ref.2).unresolved =
        x.unresolved ++ [fateIn x.catalog ref].filterMap Fate.reported? ∧
      (Draft.follow x ref.1 ref.2).catalog.tables =
        storing x.catalog.tables [fateIn x.catalog ref] := by
  obtain ⟨table, fk⟩ := ref
  unfold fateIn
  cases hresolve : PendingForeignKey.resolve x.catalog fk with
  | error dangling =>
    -- the reference leads nowhere: it is reported and no table changes
    constructor
    · simp [Draft.follow, hresolve, Fate.reported?]
    · have hnone (name : String) (u : UnresolvedReference) :
          [Fate.reported u].filterMap (Fate.storedIn? name) = [] := rfl
      simp [Draft.follow, hresolve, storing, hnone]
  | ok r =>
    -- the reference is followed: it is stored in the table of its name and in no other
    obtain ⟨t, ht, htable, -⟩ := href
    constructor
    · simp [Draft.follow, hresolve, Fate.reported?]
    · dsimp only at htable
      subst htable
      simp only [Draft.follow, hresolve]
      rw [Catalog.modifyTable_of_mem h.distinct ht, storing]
      refine List.map_congr_left fun u hu => ?_
      by_cases hname : t.name = u.name
      · simp [Fate.storedIn?, hname]
      · simp [Fate.storedIn?, hname]

/-- Following references one after another gives each of them its fate. -/
theorem followAll_fates {refs : List (String × PendingForeignKey)} {x : Extraction}
    (h : x.catalog.Referential) (hrefs : ∀ ref ∈ refs, StandsInCatalog x.catalog ref) :
    (Draft.followAll x refs).unresolved =
        x.unresolved ++ (refs.map (fateIn x.catalog)).filterMap Fate.reported? ∧
      (Draft.followAll x refs).catalog.tables =
        storing x.catalog.tables (refs.map (fateIn x.catalog)) := by
  -- what is stored on the way keeps the catalog referential and the fates of the others
  induction refs generalizing x with
  | nil => exact ⟨(List.append_nil _).symm, (storing_nil _).symm⟩
  | cons ref rest ih =>
    rw [List.forall_mem_cons] at hrefs
    obtain ⟨hunresolved, htables⟩ := follow_fate h hrefs.1
    obtain ⟨hnext, hgrows⟩ := h.follow hrefs.1
    obtain ⟨hunresolved', htables'⟩ :=
      ih hnext fun other hother => hgrows.standsIn (hrefs.2 other hother)
    have hcons : (ref :: rest).map (fateIn x.catalog) =
        [fateIn x.catalog ref] ++ rest.map (fateIn x.catalog) := rfl
    rw [fateIn_storing htables] at hunresolved' htables'
    constructor
    · rw [hcons, List.filterMap_append, ← List.append_assoc, ← hunresolved]
      exact hunresolved'
    · rw [hcons, storing_append, ← htables]
      exact htables'

/-- An extraction in which references have these fates, one each. Read in order, the fates make up
what is reported and what is stored in each table. -/
structure Extraction.Settles (x : Extraction) (refs : List (String × PendingForeignKey))
    (fates : List Fate) : Prop where
  oneEach  : List.Forall₂ FateOf refs fates
  tables   : ∀ table fk, Fate.stored table fk ∈ fates → ∃ t ∈ x.catalog.tables, t.name = table
  reported : x.unresolved = fates.filterMap Fate.reported?
  stored   : ∀ t ∈ x.catalog.tables, t.foreignKeys = fates.filterMap (Fate.storedIn? t.name)

/-- Every accepted reference has one fate. -/
theorem settles_ofStatements (dialect : Dialect) (statements : List (Origin × List Token)) :
    ∃ fates, (Extraction.ofStatements dialect statements).Settles
      (acceptedReferences dialect statements) fates := by
  -- before any reference is followed no table refers to another, so all that is stored are fates
  let x := Extraction.ofStatements dialect statements
  let d := ({} : Draft).addAll dialect statements
  have hd : d.Sound := Draft.Sound.empty.addAll dialect statements
  obtain ⟨hreferential, hstands, hnone⟩ := (hd.applyChanges hd.changes).ready
  obtain ⟨hunresolved, htables⟩ := followAll_fates
    (x := { catalog := (d.applyChanges d.changes).catalog.withEnumColumns
            errors := (d.applyChanges d.changes).errors }) hreferential hstands
  dsimp only at hunresolved htables
  let fate := fateIn (d.applyChanges d.changes).catalog.withEnumColumns
  have hx : x.catalog.tables = storing (d.applyChanges d.changes).catalog.withEnumColumns.tables
      ((d.applyChanges d.changes).pending.map fate) := htables
  have hfates : List.Forall₂ FateOf (d.applyChanges d.changes).pending
      ((d.applyChanges d.changes).pending.map fate) :=
    List.forall₂_map_right_iff.2 (List.forall₂_same.2 fun ref _ => fateOf_fateIn _ ref)
  refine ⟨_, ?_, ?_, hunresolved, ?_⟩
  · exact fatesOf_of_keptIn (pending_of_accepted dialect statements) hfates
  · intro table fk hfk
    obtain ⟨ref, href, hfate⟩ := List.mem_map.1 hfk
    obtain ⟨t, ht, hname, -⟩ := hstands ref href
    rw [hx]
    exact ⟨_, List.mem_map_of_mem ht, hname.trans (table_of_fateIn hfate).symm⟩
  · intro t ht
    rw [hx] at ht
    obtain ⟨u, hu, rfl⟩ := List.mem_map.1 ht
    dsimp only
    rw [hnone u hu, List.nil_append]

end CrudGen
