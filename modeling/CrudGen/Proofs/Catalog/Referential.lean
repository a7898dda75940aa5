import CrudGen.Catalog.Build
import CrudGen.Proofs.Catalog.Change

/-!
# Catalogs — references between tables

`Catalog.Referential` is what the rest of the program relies on when it compares names letter by
letter: declared names differ, every constraint names columns of its table in the declared spelling,
and every foreign key names a declared table with its columns in the declared spelling.

`Draft.Sound` is the invariant of the two passes that leads there. Tables of a draft refer to
nothing yet, but each reference that waits stands in a table of the draft. Columns and tables are
only ever added, so a reference that is followed stays valid.

Main result:

* `ofScript_referential` — every script, in every dialect, is read into such a catalog.
-/

namespace CrudGen

open Text (sameName)
open Sql (Dialect PendingForeignKey Statement TableChange TableDefinition Token)

/-- A foreign key that refers to declared columns of a declared table, one for each of its own. -/
structure ForeignKey.Resolved (c : Catalog) (fk : ForeignKey) : Prop where
  columns : fk.columns ≠ []
  length  : fk.columns.length = fk.targetColumns.length
  target  : ∃ t ∈ c.tables, t.name = fk.targetTable ∧ ∀ n ∈ fk.targetColumns, n ∈ t.columnNames

/-- A catalog whose names can be compared letter by letter. -/
structure Catalog.Referential (c : Catalog) : Prop where
  distinct   : DistinctNames (c.tables.map (·.name))
  wellFormed : ∀ t ∈ c.tables, t.WellFormed
  resolved   : ∀ t ∈ c.tables, ∀ fk ∈ t.foreignKeys, fk.Resolved c

/-- A reference stands in a declared table, under its declared name. -/
def StandsInCatalog (c : Catalog) (ref : String × PendingForeignKey) : Prop :=
  ∃ t ∈ c.tables, t.name = ref.1 ∧ ref.2.StandsIn t

-- ---------------------------------------------------------------------------
-- Catalogs that grow
-- ---------------------------------------------------------------------------

/-- Every table is still there, with its name and its columns and maybe more. -/
def Catalog.Grows (c c' : Catalog) : Prop :=
  ∀ t ∈ c.tables, ∃ t' ∈ c'.tables, t'.name = t.name ∧ t.columnNames ⊆ t'.columnNames

namespace Catalog.Grows

variable {c c' : Catalog}

/-- A catalog with more tables has grown. -/
theorem of_subset (h : c.tables ⊆ c'.tables) : c.Grows c' :=
  fun t ht => ⟨t, h ht, rfl, List.Subset.refl _⟩

/-- A catalog has grown if one table has more columns than before. -/
theorem of_replaces {t t' : Table} (h : c.Replaces c' t t') (hname : t'.name = t.name)
    (hcolumns : t.columnNames ⊆ t'.columnNames) : c.Grows c' := by
  obtain ⟨before, after, hc, hc'⟩ := h
  intro u hu
  rw [hc] at hu
  rw [hc']
  rcases List.mem_append.1 hu with hb | ht
  · exact ⟨u, List.mem_append_left _ hb, rfl, List.Subset.refl _⟩
  · rcases List.mem_cons.1 ht with rfl | ha
    · exact ⟨t', by simp, hname, hcolumns⟩
    · exact ⟨u, by simp [ha], rfl, List.Subset.refl _⟩

/-- A reference that stands in a table stands in it when the catalog has grown. -/
theorem standsIn (h : c.Grows c') {ref : String × PendingForeignKey}
    (href : StandsInCatalog c ref) :
    StandsInCatalog c' ref := by
  obtain ⟨t, ht, hname, hcolumns⟩ := href
  obtain ⟨t', ht', hname', hsubset⟩ := h t ht
  exact ⟨t', ht', hname'.trans hname, fun n hn => hsubset (hcolumns n hn)⟩

/-- A foreign key that leads somewhere leads there when the catalog has grown. -/
theorem resolved (h : c.Grows c') {fk : ForeignKey} (hfk : fk.Resolved c) : fk.Resolved c' := by
  obtain ⟨t, ht, hname, hcolumns⟩ := hfk.target
  obtain ⟨t', ht', hname', hsubset⟩ := h t ht
  exact { hfk with target := ⟨t', ht', hname'.trans hname, fun n hn => hsubset (hcolumns n hn)⟩ }

end Catalog.Grows

/-- Replacing a table by one of the same name keeps the names of all tables. -/
theorem Catalog.Replaces.names {c c' : Catalog} {t t' : Table} (h : c.Replaces c' t t')
    (hname : t'.name = t.name) : c'.tables.map (·.name) = c.tables.map (·.name) := by
  obtain ⟨before, after, hc, hc'⟩ := h
  rw [hc, hc']
  simp [hname]

/-- What holds of all tables holds of them after one is replaced, if it holds of the new one. -/
theorem Catalog.Replaces.forall {c c' : Catalog} {t t' : Table} {P : Table → Prop}
    (h : c.Replaces c' t t') (hall : ∀ u ∈ c.tables, P u) (ht' : P t → P t') :
    ∀ u ∈ c'.tables, P u := by
  obtain ⟨before, after, hc, hc'⟩ := h
  rw [hc] at hall
  rw [hc']
  simp only [List.forall_mem_append, List.forall_mem_cons] at hall ⊢
  exact ⟨hall.1, ht' hall.2.1, hall.2.2⟩

-- ---------------------------------------------------------------------------
-- The two passes over statements
-- ---------------------------------------------------------------------------

/-- A catalog under construction: no table refers to another yet, every reference that waits stands
in a table, and every change put aside is sound. -/
structure Draft.Sound (d : Draft) : Prop where
  distinct : DistinctNames (d.catalog.tables.map (·.name))
  drafted  : ∀ t ∈ d.catalog.tables, t.Drafted []
  pending  : ∀ ref ∈ d.pending, StandsInCatalog d.catalog ref
  changes  : ∀ c ∈ d.changes, c.2.Sound

namespace Draft.Sound

variable {d : Draft}

/-- Enumerations and sequences are no matter of soundness. -/
theorem setTables (h : d.Sound) {c : Catalog} (hc : c.tables = d.catalog.tables) :
    ({ d with catalog := c } : Draft).Sound := by
  refine ⟨?_, ?_, fun ref href => ?_, h.changes⟩
  · rw [hc]
    exact h.distinct
  · rw [hc]
    exact h.drafted
  · refine Catalog.Grows.standsIn (c := d.catalog) (.of_subset ?_) (h.pending ref href)
    rw [hc]
    exact List.Subset.refl _

/-- A table that is sound is added to a sound draft, or is refused. -/
theorem addTable (h : d.Sound) (origin : Origin) {t : TableDefinition}
    (ht : t.table.Drafted t.foreignKeys) : (d.addTable origin t).Sound := by
  unfold Draft.addTable
  split
  · split
    · exact h
    · exact ⟨h.distinct, h.drafted, h.pending, h.changes⟩
  · rename_i hnew
    dsimp only
    have htables := d.catalog.tables_addEnums t.inlineEnums
    -- the new table goes to the end, and no table that is there has its name
    have hgrows : d.catalog.Grows
        { t.inlineEnums.foldl Catalog.addEnum d.catalog with
          tables := (t.inlineEnums.foldl Catalog.addEnum d.catalog).tables ++ [t.table] } := by
      refine .of_subset ?_
      rw [htables]
      exact List.subset_append_left _ _
    refine ⟨?_, ?_, ?_, h.changes⟩
    · rw [htables, List.map_append]
      refine h.distinct.concat fun name hname => ?_
      obtain ⟨u, hu, rfl⟩ := List.mem_map.1 hname
      simpa [Catalog.table?] using List.find?_eq_none.1 (by simpa [Catalog.table?] using hnew) u hu
    · rw [htables]
      exact List.forall_mem_append.2 ⟨h.drafted,
        List.forall_mem_singleton.2 { ht with pending := by simp }⟩
    · intro ref href
      rcases List.mem_append.1 href with hold | hadded
      · exact hgrows.standsIn (h.pending ref hold)
      · obtain ⟨fk, hfk, rfl⟩ := List.mem_map.1 hadded
        exact ⟨t.table, by simp, rfl, ht.pending fk hfk⟩

theorem add (h : d.Sound) (origin : Origin) {s : Statement} (hs : s.Sound) :
    (d.add origin s).Sound := by
  cases s with
  | createTable t => exact h.addTable origin hs
  | createSequence s => exact h.setTables (Catalog.tables_addSequence _ _)
  | createEnum e => exact h.setTables (Catalog.tables_addEnum _ _)
  | change c =>
    exact { h with
      changes := List.forall_mem_append.2 ⟨h.changes, List.forall_mem_singleton.2 hs⟩ }
  | skipped => exact h

/-- Tokens that are read are sound as a statement, and others are an error. -/
theorem addTokens (h : d.Sound) (dialect : Dialect) (origin : Origin) (tokens : List Token) :
    (d.addTokens dialect origin tokens).Sound := by
  unfold Draft.addTokens
  split
  · rename_i s hs
    exact h.add origin (Statement.sound_of_parse hs)
  · exact ⟨h.distinct, h.drafted, h.pending, h.changes⟩

/-- A change that is accepted leaves a sound table. -/
theorem applyChange (h : d.Sound) (origin : Origin) {change : TableChange} (hc : change.Sound) :
    (d.applyChange origin change).Sound := by
  unfold Draft.applyChange
  split
  · rename_i c refs happly
    obtain ⟨t, t', fks, hreplaces, hname, hcolumns, hrefs, hdrafted⟩ :=
      (TableChange.apply_cases happly).replaces
    have hgrows := Catalog.Grows.of_replaces hreplaces hname hcolumns
    have ht : t.Drafted [] := by
      obtain ⟨before, after, htables, -⟩ := hreplaces
      exact h.drafted t (by simp [htables])
    have ht' := hdrafted hc ht
    -- the references of the change wait apart from its table, which refers to nothing itself
    refine ⟨?_, ?_, ?_, h.changes⟩
    · rw [hreplaces.names hname]
      exact h.distinct
    · exact hreplaces.forall h.drafted fun _ => { ht' with pending := by simp }
    · refine List.forall_mem_append.2 ⟨fun ref href => hgrows.standsIn (h.pending ref href), ?_⟩
      rw [hrefs]
      intro ref href
      obtain ⟨fk, hfk, rfl⟩ := List.mem_map.1 href
      obtain ⟨before, after, -, htables⟩ := hreplaces
      exact ⟨t', by simp [htables], rfl, ht'.pending fk hfk⟩
  · exact ⟨h.distinct, h.drafted, h.pending, h.changes⟩

/-- The first pass keeps the draft sound, statement by statement. -/
theorem addAll (h : d.Sound) (dialect : Dialect) (statements : List (Origin × List Token)) :
    (d.addAll dialect statements).Sound := by
  induction statements generalizing d with
  | nil => exact h
  | cons s rest ih => exact ih (h.addTokens dialect s.1 s.2)

/-- The second pass keeps it sound, change by change. -/
theorem applyChanges (h : d.Sound) {changes : List (Origin × TableChange)}
    (hc : ∀ c ∈ changes, c.2.Sound) : (d.applyChanges changes).Sound := by
  induction changes generalizing d with
  | nil => exact h
  | cons c rest ih =>
    rw [List.forall_mem_cons] at hc
    exact ih (h.applyChange c.1 hc.1) hc.2

end Draft.Sound

-- ---------------------------------------------------------------------------
-- References that are followed
-- ---------------------------------------------------------------------------

/-- A reference is resolved only if its table is there, and its columns are, one for each column
that refers to it. -/
theorem resolve_eq_ok {c : Catalog} {fk : PendingForeignKey} {r : ForeignKey}
    (h : PendingForeignKey.resolve c fk = .ok r) :
    ∃ target targetColumns, c.table? fk.targetTable = some target ∧
      fk.targetColumns.getD target.primaryKey ≠ [] ∧
      (fk.targetColumns.getD target.primaryKey).length = fk.columns.length ∧
      target.declaredColumns (fk.targetColumns.getD target.primaryKey) = .ok targetColumns ∧
      r = { fk with targetTable := target.name, targetColumns } := by
  -- the target is declared, is named with columns, and with as many as there are
  simp only [PendingForeignKey.resolve] at h
  split at h
  · rename_i target htarget
    split at h
    · cases h
    · rename_i hempty
      split at h
      · cases h
      · rename_i hlength
        obtain ⟨targetColumns, hfound, hset⟩ := ok_of_bind h
        cases hset
        exact ⟨target, targetColumns, htarget, by simpa using hempty, by simpa using hlength,
          ok_of_mapError hfound, rfl⟩
  · cases h

/-- A reference that can be followed leads to declared columns of a declared table. -/
theorem resolved_of_resolve {c : Catalog} {fk : PendingForeignKey} {r : ForeignKey}
    (h : PendingForeignKey.resolve c fk = .ok r) : r.Resolved c := by
  obtain ⟨target, targetColumns, htarget, hne, hlength, hfound, rfl⟩ := resolve_eq_ok h
  obtain ⟨hdeclared, hsame⟩ := Table.declaredColumns_eq_ok hfound
  have hwanted := List.length_pos_of_ne_nil hne
  refine ⟨?_, ?_, target, (Catalog.mem_of_table? htarget).1, rfl, hdeclared⟩
  · -- there are as many columns as targets, and there is a target
    rintro (hnil : fk.columns = [])
    rw [hnil, List.length_nil] at hlength
    omega
  · exact hlength.symm.trans hsame.length_eq.symm

/-- Columns that become enumerations are the columns that the constraints name. -/
theorem drafted_withEnumColumns {c : Catalog} (h : ∀ t ∈ c.tables, t.Drafted []) :
    ∀ t ∈ c.withEnumColumns.tables, t.Drafted [] := by
  intro t ht
  obtain ⟨u, hu, rfl⟩ := List.mem_map.1 ht
  refine (h u hu).setColumns ?_
  rw [List.map_map]
  rfl

/-- Columns become enumerations, and tables keep their names. -/
theorem names_withEnumColumns (c : Catalog) :
    c.withEnumColumns.tables.map (·.name) = c.tables.map (·.name) := by
  simp [Catalog.withEnumColumns]

/-- A catalog has grown when columns become enumerations. -/
theorem grows_withEnumColumns (c : Catalog) : c.Grows c.withEnumColumns := by
  intro t ht
  refine ⟨_, List.mem_map_of_mem ht, rfl, fun n hn => ?_⟩
  rw [Table.columnNames, List.map_map]
  exact hn

/-- A catalog whose tables refer to nothing is referential. -/
theorem referential_of_drafted {c : Catalog} (hdistinct : DistinctNames (c.tables.map (·.name)))
    (h : ∀ t ∈ c.tables, t.Drafted []) : c.Referential := by
  refine ⟨hdistinct, fun t ht => (h t ht).wellFormed, fun t ht fk hfk => ?_⟩
  rw [(h t ht).foreignKeys] at hfk
  cases hfk

namespace Catalog.Referential

/-- Following a reference that stands in the catalog stores it there, or leaves the catalog
alone. -/
theorem follow {x : Extraction} (h : x.catalog.Referential) {table : String}
    {fk : PendingForeignKey} (hfk : StandsInCatalog x.catalog (table, fk)) :
    (Draft.follow x table fk).catalog.Referential ∧
      x.catalog.Grows (Draft.follow x table fk).catalog := by
  unfold Draft.follow
  split
  · rename_i r hr
    obtain ⟨t, ht, rfl, hstands⟩ := hfk
    -- the foreign key is stored in the table that the reference stands in, under its declared name
    have hreplaces := replaces_modifyTable (table?_of_mem h.distinct ht) fun t =>
      { t with foreignKeys := t.foreignKeys ++ [r] }
    have hgrows := Grows.of_replaces hreplaces rfl (List.Subset.refl _)
    have hcolumns : r.columns = fk.columns := by
      obtain ⟨_, _, -, -, -, -, rfl⟩ := resolve_eq_ok hr
      rfl
    refine ⟨⟨?_, ?_, ?_⟩, hgrows⟩
    · dsimp only
      rw [hreplaces.names rfl]
      exact h.distinct
    · refine hreplaces.forall h.wellFormed fun ht => ht.addForeignKey ?_
      rw [hcolumns]
      exact hstands
    · have hkept : ∀ u ∈ x.catalog.tables, ∀ fk ∈ u.foreignKeys, fk.Resolved _ :=
        fun u hu fk hfk => hgrows.resolved (h.resolved u hu fk hfk)
      exact hreplaces.forall hkept fun ht => List.forall_mem_append.2
        ⟨ht, List.forall_mem_singleton.2 (hgrows.resolved (resolved_of_resolve hr))⟩
  · exact ⟨h, .of_subset (List.Subset.refl _)⟩

/-- References that stand in their tables keep the catalog referential when they are followed. -/
theorem followAll {pending : List (String × PendingForeignKey)} {x : Extraction}
    (h : x.catalog.Referential) (hpending : ∀ ref ∈ pending, StandsInCatalog x.catalog ref) :
    (Draft.followAll x pending).catalog.Referential := by
  -- tables only grow on the way, so the references that are still to come stay where they stand
  induction pending generalizing x with
  | nil => exact h
  | cons ref rest ih =>
    rw [List.forall_mem_cons] at hpending
    obtain ⟨hnext, hgrows⟩ := h.follow hpending.1
    exact ih hnext fun other hother => hgrows.standsIn (hpending.2 other hother)

end Catalog.Referential

/-- After both passes every reference is ready to be followed. -/
theorem Draft.Sound.ready {d : Draft} (h : d.Sound) :
    d.catalog.withEnumColumns.Referential ∧
      (∀ ref ∈ d.pending, StandsInCatalog d.catalog.withEnumColumns ref) ∧
      ∀ t ∈ d.catalog.withEnumColumns.tables, t.foreignKeys = [] := by
  have hdrafted := drafted_withEnumColumns h.drafted
  refine ⟨referential_of_drafted ?_ hdrafted, fun ref href => ?_, fun t ht => ?_⟩
  · rw [names_withEnumColumns]
    exact h.distinct
  · exact (grows_withEnumColumns _).standsIn (h.pending ref href)
  · exact (hdrafted t ht).foreignKeys

theorem Draft.Sound.empty : ({} : Draft).Sound :=
  ⟨.nil, by simp, by simp, by simp⟩

/-- Every catalog is referential, whatever statements it is made of. -/
theorem referential_ofStatements (dialect : Dialect) (statements : List (Origin × List Token)) :
    (Extraction.ofStatements dialect statements).catalog.Referential := by
  have hd := Draft.Sound.empty.addAll dialect statements
  obtain ⟨hreferential, hstands, -⟩ := (hd.applyChanges hd.changes).ready
  exact hreferential.followAll hstands

/-- **References.** Whatever a script says and in whatever dialect, its catalog is referential. -/
theorem ofScript_referential (script : String) (dialect : Dialect) :
    (Extraction.ofScript script dialect).catalog.Referential :=
  referential_ofStatements _ _

-- ---------------------------------------------------------------------------
-- Scripts in characters
-- ---------------------------------------------------------------------------

/-- A script is read by its characters. Those of a literal are given by `String.toList_ofList`: to
decode a literal anew takes time that is quadratic in its length. -/
theorem originsOf_of_toList {script : String} {cs : List Char} (h : script.toList = cs) :
    originsOf script = numbered ((Sql.statements (Sql.Lexer.scan 0 cs)).map fun run =>
      (Sql.excerpt cs run, run.map (·.token))) := by
  subst h
  rfl

/-- What a script is made into is made of its characters. -/
theorem Extraction.ofScript_of_toList {script : String} {cs : List Char} (h : script.toList = cs)
    (dialect : Dialect) : Extraction.ofScript script dialect =
      .ofStatements (dialect.resolve script) (numbered <|
        (Sql.statements (Sql.Lexer.scan 0 cs)).map fun run =>
          (Sql.excerpt cs run, run.map (·.token))) := by
  rw [Extraction.ofScript, originsOf_of_toList h]

/-- Characters of two texts, one behind the other. -/
theorem toList_append_of {a b : String} {cs ds : List Char} (ha : a.toList = cs)
    (hb : b.toList = ds) : (a ++ b).toList = cs ++ ds := by
  rw [String.toList_append, ha, hb]

/-- Characters of lines, with a separator between them. -/
theorem toList_intercalate_of {separator : String} {lines : List String} {cs : List Char}
    {css : List (List Char)} (hseparator : separator.toList = cs)
    (hlines : lines.map String.toList = css) :
    (separator.intercalate lines).toList = cs.intercalate css := by
  rw [String.toList_intercalate, hseparator, hlines]

/-- Characters of lines, line by line. -/
theorem map_toList_cons_of {line : String} {lines : List String} {cs : List Char}
    {css : List (List Char)} (hline : line.toList = cs) (hlines : lines.map String.toList = css) :
    (line :: lines).map String.toList = cs :: css := by
  rw [List.map_cons, hline, hlines]

end CrudGen
