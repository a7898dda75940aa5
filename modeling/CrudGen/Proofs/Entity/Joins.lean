import CrudGen.Proofs.Entity.Relations
import CrudGen.Proofs.Schema.Endpoints
import CrudGen.Target.BuiltIn

/-!
# Entities — the columns of relations

A query for related rows puts the columns of a relation side by side: those of its entity with those
of the other one, or each of them with columns of a junction. They have to be declared where they
are looked for, and as many on both sides.

The columns of an entity behind a junction are looked up by the columns of the junction alone: they
are those that the first foreign key over these columns refers to. Where several foreign keys share
their columns, this may be one to another table.

Main results:

* `relation_joins` — which columns are joined, and where they are declared.
* `relation_columns_misplaced` — a column of another table is taken for one of the entity.
-/

namespace CrudGen

open Sql (Dialect)

-- ---------------------------------------------------------------------------
-- Joins
-- ---------------------------------------------------------------------------

/-- The first foreign key over exactly these columns. -/
def Table.keyOver? (t : Table) (columns : List String) : Option ForeignKey :=
  t.foreignKeys.find? (·.columns == columns)

/-- A foreign key over columns of a table refers to declared columns of another one. -/
structure Table.Refers (t : Table) (columns : List String) (target : Table)
    (targetColumns : List String) : Prop where
  key      : ∃ fk ∈ t.foreignKeys, fk.columns = columns ∧ fk.targetTable = target.name ∧
               fk.targetColumns = targetColumns
  declared : ∀ c ∈ targetColumns, c ∈ target.columnNames

/-- A junction is joined with the table at one end of a relation, by columns of a foreign key to
that table. They are put beside as many columns, which the junction refers to if its first foreign
key over its columns goes to that table. -/
structure Table.Meets (t : Table) (columns : List String) (target : Table)
    (targetColumns : List String) : Prop where
  declared : ∀ c ∈ columns, c ∈ t.columnNames
  key      : ∃ fk ∈ t.foreignKeys, fk.columns = columns ∧ fk.targetTable = target.name
  nonempty : targetColumns ≠ []
  length   : columns.length = targetColumns.length
  refers   : (t.keyOver? columns).map (·.targetTable) = some target.name →
               t.Refers columns target targetColumns

/-- The columns of a relation between two tables can be joined: with each other, or each of them
with columns of a junction. The junction refers to the end that owns the relationship in any case.
-/
inductive Relation.Joins (s : Schema) (r : Relation) (near far : Table) : Prop
  | direct (hvia : r.via = none) (hnonempty : r.localColumns ≠ [])
      (hlength : r.localColumns.length = r.remoteColumns.length)
      (hnear : ∀ c ∈ r.localColumns, c ∈ near.columnNames)
      (hfar : ∀ c ∈ r.remoteColumns, c ∈ far.columnNames) : Joins s r near far
  | through {link : Link} {t : Table} (hvia : r.via = some link) (ht : t ∈ s.tables)
      (hname : t.name = link.table) (hjunction : t.isJunction = true)
      (hnear : t.Meets link.localColumns near r.localColumns)
      (hfar : t.Meets link.remoteColumns far r.remoteColumns)
      (howner : if r.inverse then t.Refers link.remoteColumns far r.remoteColumns
        else t.Refers link.localColumns near r.localColumns) : Joins s r near far

-- ---------------------------------------------------------------------------
-- Columns of a junction
-- ---------------------------------------------------------------------------

variable {c : Catalog} {t target : Table} {columns : List String}

theorem referenced_infer (h : c.Referential) (ht : t ∈ c.tables) {fk : ForeignKey}
    (hfk : t.keyOver? columns = some fk) :
    (Schema.infer c).referenced t.name columns = fk.targetColumns := by
  have hfind : t.foreignKeys.find? (·.columns == columns) = some fk := hfk
  rw [Schema.referenced, table?_infer h.distinct.nodup ht, Option.bind_some, hfind]
  rfl

theorem mem_of_keyOver? {fk : ForeignKey} (h : t.keyOver? columns = some fk) :
    fk ∈ t.foreignKeys ∧ fk.columns = columns :=
  ⟨List.mem_of_find?_eq_some h, by simpa using List.find?_some h⟩

/-- Over the columns of a foreign key there is a first one. -/
theorem exists_keyOver? {fk : ForeignKey} (hfk : fk ∈ t.foreignKeys) :
    ∃ first, t.keyOver? fk.columns = some first := by
  rw [← Option.isSome_iff_exists, Table.keyOver?, List.find?_isSome]
  exact ⟨fk, hfk, by simp⟩

/-- The table that a resolved foreign key names has the columns it refers to. -/
theorem declared_of_resolved (h : c.Referential) (ht : t ∈ c.tables) {fk : ForeignKey}
    (hfk : fk ∈ t.foreignKeys) (htarget : target ∈ c.tables)
    (hname : fk.targetTable = target.name) :
    ∀ column ∈ fk.targetColumns, column ∈ target.columnNames := by
  obtain ⟨declared, hmem, hsame, hcolumns⟩ := (h.resolved t ht fk hfk).target
  have heq : declared = target :=
    List.inj_on_of_nodup_map h.distinct.nodup hmem htarget (hsame.trans hname)
  exact heq ▸ hcolumns

/-- Columns of a foreign key are joined with those that the first foreign key over them refers to.
-/
theorem meets_of_mem (h : c.Referential) (ht : t ∈ c.tables) {fk : ForeignKey}
    (hfk : fk ∈ t.foreignKeys) (htarget : target ∈ c.tables)
    (hname : fk.targetTable = target.name) :
    t.Meets fk.columns target ((Schema.infer c).referenced t.name fk.columns) := by
  obtain ⟨first, hfirst⟩ := exists_keyOver? hfk
  obtain ⟨hmem, hcolumns⟩ := mem_of_keyOver? hfirst
  have hresolved := h.resolved t ht first hmem
  have hlength : fk.columns.length = first.targetColumns.length := by
    rw [← hcolumns, hresolved.length]
  rw [referenced_infer h ht hfirst]
  refine ⟨(h.wellFormed t ht).foreignKeys fk hfk, ⟨fk, hfk, rfl, hname⟩, ?_, hlength,
    fun hfirstTarget => ?_⟩
  · exact List.ne_nil_of_length_pos
      (hresolved.length ▸ List.length_pos_iff.2 hresolved.columns)
  · rw [hfirst, Option.map_some, Option.some_inj] at hfirstTarget
    exact ⟨⟨first, hmem, hcolumns, hfirstTarget, rfl⟩,
      declared_of_resolved h ht hmem htarget hfirstTarget⟩

-- ---------------------------------------------------------------------------
-- Relations
-- ---------------------------------------------------------------------------

variable {rel : Relationship}

/-- Both ends of the relationship of a foreign key have columns, which are declared there and as
many as those of the other end. -/
theorem ends_of_key (h : c.Referential) (ht : t ∈ c.tables) {fk : ForeignKey}
    (hfk : fk ∈ t.foreignKeys) (hout : OutcomeOf t fk (.related rel)) (inverse : Bool) :
    rel.nearColumns inverse ≠ [] ∧
      (rel.nearColumns inverse).length = (rel.nearColumns (!inverse)).length ∧
      ∀ u ∈ c.tables, u.name = rel.near inverse →
        ∀ column ∈ rel.nearColumns inverse, column ∈ u.columnNames := by
  cases hout with
  | related _ howner htarget hcolumns htargetColumns hvia =>
    have hresolved := h.resolved t ht fk hfk
    have hlength : rel.columns.length = rel.targetColumns.length := by
      rw [hcolumns, htargetColumns, hresolved.length]
    have hnonempty : rel.columns ≠ [] := hcolumns ▸ hresolved.columns
    -- the owner's end holds the foreign key, and the target's what it refers to
    cases inverse with
    | false =>
      refine ⟨hnonempty, hlength, fun u hu hname => ?_⟩
      have hsame : u = t :=
        List.inj_on_of_nodup_map h.distinct.nodup hu ht (hname.trans howner)
      have hdeclared : ∀ column ∈ rel.columns, column ∈ t.columnNames :=
        hcolumns ▸ (h.wellFormed t ht).foreignKeys fk hfk
      exact hsame ▸ hdeclared
    | true =>
      refine ⟨List.ne_nil_of_length_pos (hlength ▸ List.length_pos_iff.2 hnonempty), hlength.symm,
        fun u hu hname => ?_⟩
      have hdeclared : ∀ column ∈ rel.targetColumns, column ∈ u.columnNames :=
        htargetColumns ▸ declared_of_resolved h ht hfk hu (htarget.symm.trans hname.symm)
      exact hdeclared

/-- Each end of the relationship of a junction has the columns of a foreign key to it. -/
theorem key_of_end (hlinks : LinksTargets t rel) (inverse : Bool) :
    ∃ fk ∈ t.foreignKeys, fk.columns = rel.nearColumns inverse ∧
      fk.targetTable = rel.near inverse := by
  obtain ⟨first, same, second, later, hfks, -, -, -, howner, hcolumns, htarget, htargetColumns⟩ :=
    hlinks.keys
  rw [hfks]
  cases inverse with
  | false => exact ⟨first, by simp, hcolumns.symm, howner.symm⟩
  | true => exact ⟨second, by simp, htargetColumns.symm, htarget.symm⟩

/-- The first foreign key over the columns of the owner goes to the owner. -/
theorem keyOver?_owner (hlinks : LinksTargets t rel) :
    (t.keyOver? (rel.nearColumns false)).map (·.targetTable) = some (rel.near false) := by
  obtain ⟨first, same, second, later, hfks, -, -, -, howner, hcolumns, -⟩ := hlinks.keys
  have hfirst : t.keyOver? rel.columns = some first := by
    rw [Table.keyOver?, hfks, hcolumns, List.find?_cons_of_pos (by simp)]
  rw [Relationship.nearColumns, if_neg (by simp), hfirst, Relationship.near, if_neg (by simp),
    howner]
  rfl

/-- Whatever end a relationship is seen from, the columns of the relation can be joined. -/
theorem joins_of_comesFrom (h : c.Referential) (ht : t ∈ c.tables)
    (hfrom : rel.ComesFrom (Schema.infer c) t) {inverse : Bool} {near far : Table}
    (hnear : near ∈ c.tables) (hnearName : near.name = rel.near inverse) (hfar : far ∈ c.tables)
    (hfarName : far.name = rel.near (!inverse)) (p : Profile) (names : NameTable) (name : String) :
    ((rel.seen inverse).relation (Schema.infer c) p names name).Joins (Schema.infer c) near
      far := by
  cases hfrom with
  | entity hkind hfk htarget howner hend hout =>
    obtain ⟨hnonempty, hlength, hdeclared⟩ := ends_of_key h ht hfk hout inverse
    obtain ⟨-, -, hdeclaredFar⟩ := ends_of_key h ht hfk hout (!inverse)
    have hvia : rel.via = none := by
      cases hout
      assumption
    refine .direct ?_ ?_ ?_ ?_ ?_ <;>
      simp only [RelationView.relation_via, RelationView.relation_localColumns,
        RelationView.relation_remoteColumns, Relationship.seen_relationship,
        Relationship.seen_inverse, hvia, Schema.joinColumns, Option.map_none]
    · exact hnonempty
    · exact hlength
    · exact hdeclared near hnear hnearName
    · exact hdeclaredFar far hfar hfarName
  | junction hjunction hlinks =>
    -- both lists of the relationship are columns of foreign keys of the junction
    have hmeets (inverse : Bool) {u : Table} (hu : u ∈ c.tables)
        (hname : u.name = rel.near inverse) :
        t.Meets (rel.nearColumns inverse) u
          ((Schema.infer c).joinColumns rel.via (rel.nearColumns inverse)) := by
      obtain ⟨fk, hfk, hcolumns, htarget⟩ := key_of_end hlinks inverse
      rw [hlinks.via, ← hcolumns]
      exact meets_of_mem h ht hfk hu (htarget.trans hname.symm)
    have howner := keyOver?_owner hlinks
    have hvia : ((rel.seen inverse).relation (Schema.infer c) p names name).via =
        some ⟨t.name, rel.nearColumns inverse, rel.nearColumns (!inverse)⟩ := by
      simp [hlinks.via]
    refine .through hvia ht rfl hjunction ?_ ?_ ?_
    · simpa using hmeets inverse hnear hnearName
    · simpa using hmeets (!inverse) hfar hfarName
    · cases inverse with
      | false =>
        have hrefers := (hmeets false hnear hnearName).refers
        rw [hnearName] at hrefers
        simpa using hrefers howner
      | true =>
        have hrefers := (hmeets false hfar hfarName).refers
        rw [hfarName] at hrefers
        simpa using hrefers howner

/-- Every end of a relationship is a declared table. -/
theorem exists_end (h : c.Referential) (hrel : rel ∈ (Schema.infer c).relationships)
    (inverse : Bool) : ∃ t ∈ c.tables, t.name = rel.near inverse := by
  obtain ⟨t, ht, hfrom⟩ := comesFrom_of_mem h hrel
  obtain ⟨fk, hfk, htarget⟩ | howner :
      (∃ fk ∈ t.foreignKeys, fk.targetTable = rel.near inverse) ∨ t.name = rel.near inverse := by
    cases hfrom with
    | entity hkind hfk _ howner hend _ =>
      cases inverse with
      | false => exact .inr howner.symm
      | true => exact .inl ⟨_, hfk, hend.symm⟩
    | junction hjunction hlinks =>
      obtain ⟨fk, hfk, -, htarget⟩ := key_of_end hlinks inverse
      exact .inl ⟨fk, hfk, htarget⟩
  · obtain ⟨target, hmem, hname, -⟩ := (h.resolved t ht fk hfk).target
    exact ⟨target, hmem, hname.trans htarget⟩
  · exact ⟨t, ht, howner⟩

/-- Only the relationships of junctions name a junction. -/
theorem via_of_kind (h : c.Referential) {r : Relationship}
    (hr : r ∈ (Schema.infer c).relationships) (hkind : r.kind ≠ .manyToMany) : r.via = none := by
  obtain ⟨t, -, hfrom⟩ := comesFrom_of_mem h hr
  cases hfrom with
  | entity _ _ _ _ _ hout =>
    cases hout
    assumption
  | junction _ hlinks => exact absurd hlinks.kind hkind

/-- A relation of an entity leads to a declared table, and its columns can be joined. -/
theorem joins_of_mem (h : c.Referential) {p : Profile} {e : Entity}
    (he : e ∈ (Schema.infer c).entityModels p) {r : Relation} (hr : r ∈ e.relations) :
    ∃ target ∈ c.tables, target.name = r.targetTable ∧
      r.Joins (Schema.infer c) e.table target := by
  obtain ⟨v, hshown⟩ := shown_of_mem he hr
  obtain ⟨hrel, hv, hnear, -⟩ := hshown.relationship
  obtain ⟨t, ht, hfrom⟩ := comesFrom_of_mem h hrel
  obtain ⟨target, htarget, hname⟩ := exists_end h hrel (!v.inverse)
  have hshape := hshown.eq he
  rw [hv] at hshape
  rw [hshape]
  exact ⟨target, htarget, by simpa using hname,
    joins_of_comesFrom h ht hfrom (table_of_mem h he).1 hnear.symm htarget hname _ _ _⟩

/-- **Joins.** In the schema of a script, under any profile, every relation leads from the table of
its entity to a declared table, and its columns can be joined: without a junction they are as many
declared columns of both tables, and with one they are as many as the columns of the junction and
those that it refers to. At the end that does not own the relationship this needs that the first
foreign key over the columns of the junction goes there. -/
theorem relation_joins (script : String) (dialect : Dialect) (p : Profile) :
    let s := Schema.infer (Extraction.ofScript script dialect).catalog
    ∀ e ∈ s.entityModels p, e.table ∈ s.tables ∧ ∀ r ∈ e.relations,
      ∃ target ∈ s.tables, target.name = r.targetTable ∧ r.Joins s e.table target := by
  intro s e he
  have h : (Extraction.ofScript script dialect).catalog.Referential :=
    referential_ofStatements (dialect.resolve script) (originsOf script)
  exact ⟨(table_of_mem h he).1, fun r hr => joins_of_mem h he hr⟩

/-- Where two foreign keys of a junction are over one column, a column of another table is taken for
one of the entity. -/
theorem relation_columns_misplaced :
    ¬ ∀ (script : String) (dialect : Dialect) (p : Profile),
      let s := Schema.infer (Extraction.ofScript script dialect).catalog
      ∀ e ∈ s.entityModels p, ∀ r ∈ e.relations, ∀ column ∈ r.localColumns,
        column ∈ e.table.columnNames := by
  intro h
  -- `y` refers to `a` first and then to `b`, which has no column `i`
  have hscript := h ("CREATE TABLE a(i INT); CREATE TABLE b(j INT); " ++
    "CREATE TABLE ab(x INT REFERENCES a(i), y INT, PRIMARY KEY(x, y), " ++
    "FOREIGN KEY (y) REFERENCES a(i), FOREIGN KEY (y) REFERENCES b(j))") .generic BuiltIn.axum
  have hreferential (script : String) : (Extraction.ofScript script .generic).catalog.Referential :=
    referential_ofStatements _ _
  have hbuilt := fun t ht hkind => hscript (.build _ _ _ t)
    (build_mem (hreferential _) BuiltIn.axum ht hkind)
  rw [Extraction.ofScript_of_toList (toList_append_of
    (toList_append_of String.toList_ofList String.toList_ofList) String.toList_ofList)] at hbuilt
  revert hbuilt
  decide +kernel

end CrudGen
