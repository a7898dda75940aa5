import CrudGen.Proofs.Catalog.Collected
import CrudGen.Proofs.Catalog.Notes
import CrudGen.Proofs.Data.Keyed

/-!
# Catalogs — statements in another order

Statements that declare tables and enumerations of different names may come in any order, and among
the changes anywhere, if the changes keep their own order. Two drafts are alike when the tables, the
enumerations and the references that wait agree name by name. All that is looked up in them is then
the same, so each step of the second pass does the same to both.

Main results:

* `alike_addAll` — the first pass makes drafts that are alike.
* `Draft.Alike.applyChanges`, `Draft.Alike.close` — the second pass keeps them alike to the end.
-/

namespace CrudGen

open Text (foldAscii sameName)
open Sql (Dialect PendingForeignKey TableChange TableDefinition Token)

-- ---------------------------------------------------------------------------
-- Catalogs that are alike
-- ---------------------------------------------------------------------------

/-- Enumerations that are found alike are the same to types. -/
theorem withEnums_congr {names names' : List String}
    (h : ∀ name, names.find? (sameName · name) = names'.find? (sameName · name)) (type : SqlType) :
    type.withEnums names = type.withEnums names' := by
  induction type with
  | array element ih => rw [SqlType.withEnums, SqlType.withEnums, ih]
  | unknown name => rw [SqlType.withEnums, SqlType.withEnums, h]
  | _ => rfl

/-- The tables of each name are the same in two catalogs, and so are the enumerations. -/
structure Catalog.Alike (c c' : Catalog) : Prop where
  tables : AgreeBy (fun t : Table => foldAscii t.name) c.tables c'.tables
  enums  : AgreeBy (fun e : EnumType => foldAscii e.name) c.enums c'.enums

namespace Catalog.Alike

variable {c c' : Catalog}

theorem table? (h : c.Alike c') : c.table? = c'.table? :=
  funext fun name => h.tables.find? (foldAscii name)

theorem modifyTable (h : c.Alike c') {name : String} {f : Table → Table}
    (hf : ∀ t, sameName t.name name = true → sameName (f t).name name = true) :
    (c.modifyTable name f).Alike (c'.modifyTable name f) :=
  ⟨h.tables.modifyFirst (by simpa [sameName] using hf), h.enums⟩

theorem addEnum (h : c.Alike c') (e : EnumType) : (c.addEnum e).Alike (c'.addEnum e) := by
  have hany : c.enums.any (·.name == e.name) = c'.enums.any (·.name == e.name) := by
    rw [Bool.eq_iff_iff, List.any_eq_true, List.any_eq_true]
    simp only [h.enums.mem_iff]
  unfold Catalog.addEnum
  rw [hany]
  split
  · exact h
  · exact ⟨h.tables, h.enums.append (.refl _ _)⟩

theorem addEnums (h : c.Alike c') (es : List EnumType) :
    (es.foldl Catalog.addEnum c).Alike (es.foldl Catalog.addEnum c') := by
  induction es generalizing c c' with
  | nil => exact h
  | cons e rest ih => exact ih (h.addEnum e)

/-- A change has no place in either catalog, or it does the same to both and adds the same
references. -/
theorem apply (h : c.Alike c') (change : TableChange) :
    (∃ m, TableChange.apply c change = .error m ∧ TableChange.apply c' change = .error m) ∨
      ∃ r r' refs, TableChange.apply c change = .ok (r, refs) ∧
        TableChange.apply c' change = .ok (r', refs) ∧ r.Alike r' := by
  unfold TableChange.apply
  rw [← h.table?]
  cases change with
  | index table i? =>
    dsimp only
    cases c.table? table with
    | none => exact .inl ⟨_, rfl, rfl⟩
    | some t =>
      cases i? with
      | none => exact .inr ⟨c, c', [], rfl, rfl, h⟩
      | some i =>
        dsimp only
        cases t.requireColumns i.columns "CREATE INDEX" with
        | error m => exact .inl ⟨m, rfl, rfl⟩
        | ok columns => exact .inr ⟨_, _, [], rfl, rfl, h.modifyTable fun _ => id⟩
  | alter table actions =>
    dsimp only
    cases ht : c.table? table with
    | none => exact .inl ⟨_, rfl, rfl⟩
    | some t =>
      dsimp only
      cases hs : actions.foldlM Staged.act { table := t } with
      | error m => exact .inl ⟨m, rfl, rfl⟩
      | ok s =>
        -- the changed table keeps the name that it is found under
        have hname : sameName s.table.name table = true :=
          (Staged.keeps_of_actions hs).1 ▸ (mem_of_table? ht).2
        exact .inr ⟨_, _, _, rfl, rfl, (h.modifyTable fun _ _ => hname).addEnums s.enums⟩

/-- Columns are given the same enumerations. -/
theorem withEnumColumns (h : c.Alike c') : c.withEnumColumns.Alike c'.withEnumColumns := by
  have hnames : AgreeBy foldAscii (c.enums.map (·.name)) (c'.enums.map (·.name)) :=
    h.enums.map fun _ => rfl
  have htype : SqlType.withEnums (c.enums.map (·.name)) =
      SqlType.withEnums (c'.enums.map (·.name)) :=
    funext fun type => withEnums_congr (fun name => hnames.find? (foldAscii name)) type
  refine ⟨?_, h.enums⟩
  dsimp only [Catalog.withEnumColumns]
  rw [htype]
  exact h.tables.map fun _ => rfl

end Catalog.Alike

-- ---------------------------------------------------------------------------
-- Drafts that are alike
-- ---------------------------------------------------------------------------

/-- The catalogs of two drafts are alike, and the same references of each table wait. -/
structure Draft.Alike (d d' : Draft) : Prop where
  catalog : d.catalog.Alike d'.catalog
  pending : AgreeBy Prod.fst d.pending d'.pending

/-- Statements that declare the same in different orders are collected in drafts that are alike. -/
theorem alike_addAll {dialect : Dialect} {ss ss' : List (Origin × List Token)}
    (hperm : (readable dialect ss).Perm (readable dialect ss'))
    (htables : DistinctNames ((definitionsOf dialect ss).map (·.table.name)))
    (henums : DistinctNames ((enumsOf dialect ss).map (·.name))) :
    (({} : Draft).addAll dialect ss).Alike (({} : Draft).addAll dialect ss') := by
  have hdefinitions : (definitionsOf dialect ss).Perm (definitionsOf dialect ss') :=
    hperm.filterMap _
  have hcollected : (enumsOf dialect ss).Perm (enumsOf dialect ss') := hperm.flatMap_right _
  have hfresh : ({} : Draft).Fresh (definitionsOf dialect ss) (enumsOf dialect ss) :=
    ⟨by simpa [Function.comp_def] using htables, henums⟩
  have hfresh' : ({} : Draft).Fresh (definitionsOf dialect ss') (enumsOf dialect ss') := by
    exact ⟨hfresh.tables.perm ((hdefinitions.map _).map _), hfresh.enums.perm (hcollected.map _)⟩
  -- both orders collect the tables, enumerations and references of all statements
  have h := Draft.collects_addAll hfresh
  have h' := Draft.collects_addAll hfresh'
  refine ⟨⟨?_, ?_⟩, ?_⟩
  · rw [h.tables, h'.tables]
    refine .of_perm (hdefinitions.map _) ?_
    simpa [Function.comp_def] using distinctNames_iff.1 htables
  · rw [h.enums, h'.enums]
    refine .of_perm hcollected ?_
    simpa [Function.comp_def] using distinctNames_iff.1 henums
  · rw [h.pending, h'.pending]
    -- references are told apart by the tables that they stand in
    have hkeyed : AgreeBy (fun t : TableDefinition => t.table.name)
        (definitionsOf dialect ss) (definitionsOf dialect ss') :=
      .of_perm hdefinitions htables.nodup
    refine (AgreeBy.refl _ _).append (hkeyed.flatMap fun t ref href => ?_)
    obtain ⟨fk, -, rfl⟩ := List.mem_map.1 href
    rfl

namespace Draft.Alike

variable {d d' : Draft}

/-- Where a change stands does not matter to what it does. -/
theorem applyChange (h : d.Alike d') (o o' : Origin) (change : TableChange) :
    (d.applyChange o change).Alike (d'.applyChange o' change) := by
  unfold Draft.applyChange
  rcases h.catalog.apply change with ⟨m, happly, happly'⟩ | ⟨r, r', refs, happly, happly', hr⟩
  · rw [happly, happly']
    exact ⟨h.catalog, h.pending⟩
  · rw [happly, happly']
    exact ⟨hr, h.pending.append (.refl _ _)⟩

theorem applyChanges (h : d.Alike d') {changes changes' : List (Origin × TableChange)}
    (hsame : changes.map (·.2) = changes'.map (·.2)) :
    (d.applyChanges changes).Alike (d'.applyChanges changes') := by
  induction changes generalizing d d' changes' with
  | nil =>
    rw [List.map_eq_nil_iff.1 hsame.symm]
    exact h
  | cons c rest ih =>
    obtain ⟨o, change⟩ := c
    obtain ⟨⟨o', change'⟩, rest', rfl, rfl, hrest⟩ := List.map_eq_cons_iff.1 hsame.symm
    exact ih (h.applyChange o o' change') hrest.symm

end Draft.Alike

-- ---------------------------------------------------------------------------
-- References that are followed
-- ---------------------------------------------------------------------------

theorem fateIn_congr {c c' : Catalog} (h : c.table? = c'.table?) : fateIn c = fateIn c' := by
  funext ref
  unfold fateIn PendingForeignKey.resolve
  rw [h]

theorem storedIn?_fateIn (c : Catalog) {ref : String × PendingForeignKey} {name : String}
    (hne : ref.1 ≠ name) : (fateIn c ref).storedIn? name = none := by
  unfold fateIn
  split
  · exact if_neg hne
  · rfl

/-- Tables agree still when the same is stored in each of them. -/
theorem agreeBy_storing {tables tables' : List Table} {fates fates' : List Fate}
    (h : AgreeBy (fun t : Table => foldAscii t.name) tables tables')
    (hfates : ∀ name, fates.filterMap (Fate.storedIn? name) =
      fates'.filterMap (Fate.storedIn? name)) :
    AgreeBy (fun t : Table => foldAscii t.name) (storing tables fates)
      (storing tables' fates') := by
  unfold storing
  simp only [hfates]
  exact h.map fun _ => rfl

/-- When all references are followed, the tables agree and the same is reported. -/
theorem Draft.Alike.close {d d' : Draft} (h : d.Alike d') (hd : d.Sound) (hd' : d'.Sound) :
    AgreeBy (fun t : Table => foldAscii t.name) d.close.catalog.tables d'.close.catalog.tables ∧
      d.close.unresolved.Perm d'.close.unresolved := by
  obtain ⟨hready, hstands, -⟩ := hd.ready
  obtain ⟨hready', hstands', -⟩ := hd'.ready
  obtain ⟨hunresolved, htables⟩ := followAll_fates
    (x := { catalog := d.catalog.withEnumColumns, errors := d.errors }) hready hstands
  obtain ⟨hunresolved', htables'⟩ := followAll_fates
    (x := { catalog := d'.catalog.withEnumColumns, errors := d'.errors }) hready' hstands'
  -- both catalogs give the same fate to a reference
  have hcatalog := h.catalog.withEnumColumns
  have hfate := fateIn_congr hcatalog.table?
  dsimp only at hunresolved htables hunresolved' htables'
  rw [← hfate] at hunresolved' htables'
  unfold Draft.close
  constructor
  · rw [htables, htables']
    refine agreeBy_storing hcatalog.tables fun name => ?_
    rw [List.filterMap_map, List.filterMap_map]
    exact h.pending.filterMap_eq fun ref hne => storedIn?_fateIn _ hne
  · rw [hunresolved, hunresolved']
    exact ((h.pending.perm.map _).filterMap _).append_left _

/-- Statements that declare the same under different names, with the same changes in the same
order, are read into the same tables and the same reports. -/
theorem agree_ofStatements {dialect : Dialect} {ss ss' : List (Origin × List Token)}
    (hperm : (readable dialect ss).Perm (readable dialect ss'))
    (hchanges : changesOf dialect ss = changesOf dialect ss')
    (htables : DistinctNames ((definitionsOf dialect ss).map (·.table.name)))
    (henums : DistinctNames ((enumsOf dialect ss).map (·.name))) :
    let x := Extraction.ofStatements dialect ss
    let x' := Extraction.ofStatements dialect ss'
    AgreeBy (fun t : Table => foldAscii t.name) x.catalog.tables x'.catalog.tables ∧
      x.unresolved.Perm x'.unresolved := by
  have hd := Draft.Sound.empty.addAll dialect ss
  have hd' := Draft.Sound.empty.addAll dialect ss'
  have hsame := (Draft.changes_addAll {} dialect ss).trans
    (hchanges ▸ (Draft.changes_addAll {} dialect ss').symm)
  exact ((alike_addAll hperm htables henums).applyChanges hsame).close
    (hd.applyChanges hd.changes) (hd'.applyChanges hd'.changes)

end CrudGen
