import CrudGen.Proofs.Entity.Joins
import CrudGen.Proofs.Server.Calls.Rust
import CrudGen.Proofs.Server.Statements.RawText

/-!
# Raw literals in Rust

The text of a statement stands as it is between `r#"` and `"#`. The literal ends at the first quote
that a number sign follows, so that it is the whole text unless there is one inside.

Main results:

* `covers_of_mem`, `coversRelation_of_mem` — what an entity and its relations are called by in
  statements is the name of a table or a column.
* `Rust.statements_whole_iff` — which statements of a repository are read whole.
* `Rust.statement_cut_off` — a statement that is not.
-/

namespace CrudGen

open Code

-- ---------------------------------------------------------------------------
-- Names of a schema
-- ---------------------------------------------------------------------------

/-- Whether a table of a schema or a column of one is called so. -/
def Schema.IsName (s : Schema) (name : String) : Prop :=
  ∃ t ∈ s.tables, t.name = name ∨ name ∈ t.columnNames

section Names

variable {c : Catalog} {p : Profile} {e : Entity}

/-- What a junction refers to is a column. -/
theorem isName_of_referenced (h : c.Referential) {junction column : String} {columns : List String}
    (hcolumn : column ∈ (Schema.infer c).referenced junction columns) :
    (Schema.infer c).IsName column := by
  rw [Schema.referenced] at hcolumn
  cases htable : (Schema.infer c).table? junction with
  | none => simp [htable] at hcolumn
  | some t =>
    cases hkey : t.keyOver? columns with
    | none =>
      rw [Table.keyOver?] at hkey
      simp [htable, hkey] at hcolumn
    | some fk =>
      obtain ⟨ht, -⟩ := mem_of_table?_infer htable
      obtain ⟨hfk, -⟩ := mem_of_keyOver? hkey
      rw [Table.keyOver?] at hkey
      obtain ⟨target, htarget, -, hdeclared⟩ := (h.resolved t ht fk hfk).target
      refine ⟨target, htarget, .inr (hdeclared column ?_)⟩
      simpa [htable, hkey] using hcolumn

/-- The names of an entity of a schema are those of its table. -/
theorem covers_of_mem (h : c.Referential) (he : e ∈ (Schema.infer c).entityModels p) :
    Sql.Covers (Schema.infer c).IsName e := by
  have htable : e.table ∈ c.tables :=
    ((mem_orderedEntities_infer h.distinct.nodup).1 (build_of_mem he).1).1
  have hfields : e.fields = e.table.columns.map (Field.ofColumn p e.table) :=
    congrArg Entity.fields (build_of_mem he).2
  refine ⟨⟨e.table, htable, .inl rfl⟩, ?_⟩
  rw [hfields, List.forall_mem_map]
  exact fun column hcolumn => ⟨e.table, htable, .inr (List.mem_map_of_mem hcolumn)⟩

/-- So are the names that a relation has, of the tables that it leads through and to. -/
theorem coversRelation_of_mem (h : c.Referential) (he : e ∈ (Schema.infer c).entityModels p)
    {r : Relation} (hr : r ∈ e.relations) : Sql.CoversRelation (Schema.infer c).IsName r := by
  obtain ⟨v, hshown⟩ := shown_of_mem he hr
  obtain ⟨hrel, hv, hnear, -⟩ := hshown.relationship
  obtain ⟨t, ht, hfrom⟩ := comesFrom_of_mem h hrel
  have htable : e.table ∈ c.tables :=
    ((mem_orderedEntities_infer h.distinct.nodup).1 (build_of_mem he).1).1
  obtain ⟨target, htarget, hname⟩ := exists_end h hrel (!v.inverse)
  have hjoins := joins_of_comesFrom h ht hfrom htable hnear.symm htarget hname p
    (.assign (Schema.infer c) p) r.name
  have heq := hshown.eq he
  rw [← hv, ← heq] at hjoins
  have htargetTable : r.targetTable = target.name := by
    rw [heq, hname, hv]
    simp
  -- the table joined to is one of the schema, however the relation goes
  refine ⟨⟨target, htarget, .inl htargetTable.symm⟩, ?_, ?_⟩
  -- its columns are those declared there, or those a junction refers to
  · intro column hcolumn
    cases hjoins with
    | direct hvia hnonempty hlength hdeclared hfar =>
      exact ⟨target, htarget, .inr (hfar column hcolumn)⟩
    | through hvia ht hname hjunction hmeets hfar howner =>
      rw [heq, RelationView.relation_via, Option.map_eq_some_iff] at hvia
      obtain ⟨junction, hvia, -⟩ := hvia
      rw [heq, RelationView.relation_remoteColumns, hvia, Schema.joinColumns] at hcolumn
      exact isName_of_referenced h hcolumn
  -- a junction between the two gives its name and the columns at either end
  · intro link hlink
    cases hjoins with
    | direct hvia => rw [hvia] at hlink; cases hlink
    | @through link' t' hvia ht' hname' hjunction hmeets hfar howner =>
      obtain rfl : link' = link := Option.some_inj.1 (hvia.symm.trans hlink)
      exact ⟨⟨t', ht', .inl hname'⟩,
        fun column hcolumn => ⟨t', ht', .inr (hmeets.declared column hcolumn)⟩,
        fun column hcolumn => ⟨t', ht', .inr (hfar.declared column hcolumn)⟩⟩

end Names

-- ---------------------------------------------------------------------------
-- Reading literals
-- ---------------------------------------------------------------------------

namespace Rust

/-- What stands before the first quote that a number sign follows, and what stands behind that. -/
def readRaw? : List Char → Option (List Char × List Char)
  | [] => none
  | c :: rest =>
    if c = '"' ∧ rest.head? = some '#' then some ([], rest.tail)
    else (readRaw? rest).map (Prod.map (c :: ·) id)

/-- The text of a raw literal, and what stands behind the literal. -/
def rawLiteral? (cs : List Char) : Option (List Char × List Char) :=
  (cs.dropPrefix? ['r', '#', '"']).bind readRaw?

/-- A text is read to its end exactly if the literal does not end in it. -/
theorem readRaw?_iff (cs rest : List Char) :
    readRaw? (cs ++ '"' :: '#' :: rest) = some (cs, rest) ↔ ¬ Sql.CutsRaw cs := by
  induction cs with
  | nil => simp [readRaw?]
  | cons c more ih =>
    have hsign : (more ++ '"' :: '#' :: rest).head? = some '#' ↔ more.head? = some '#' := by
      cases more <;> simp
    rw [List.cons_append, readRaw?, Sql.cutsRaw_cons, not_or, ← ih, ← hsign]
    split
    · rename_i hends
      simp [hends]
    · rename_i hgoes
      rw [and_iff_right hgoes]
      simp [Prod.ext_iff]

theorem rawLiteral?_raw_iff (sql : String) (rest : List Char) :
    rawLiteral? ((raw sql).toList ++ rest) = some (sql.toList, rest) ↔
      ¬ Sql.CutsRaw sql.toList := by
  have hopen : "r#\"".toList = ['r', '#', '"'] := String.toList_ofList
  have hclose : "\"#".toList = ['"', '#'] := String.toList_ofList
  have hline : (raw sql).toList ++ rest =
      ['r', '#', '"'] ++ (sql.toList ++ '"' :: '#' :: rest) := by
    simp [raw, hopen, hclose]
  have hdrop : (['r', '#', '"'] ++ (sql.toList ++ '"' :: '#' :: rest)).dropPrefix?
      ['r', '#', '"'] = some (sql.toList ++ '"' :: '#' :: rest) :=
    List.dropPrefix?_eq_some_iff.2 ⟨_, rfl, beq_self_eq_true _⟩
  rw [rawLiteral?, hline, hdrop, Option.bind_some, readRaw?_iff]

/-- **Raw literals.** In the schema of a script, every literal that a repository runs is the raw one
of a statement whose names are those of tables and columns of the schema. Whatever follows, it is
read as this statement exactly if no name in the statement starts with a number sign or has one
behind a quote. -/
theorem statements_whole_iff (script : String) (dialect : Sql.Dialect) (p : Profile)
    (b : Blueprint) :
    let s := Schema.infer (Extraction.ofScript script dialect).catalog
    ∀ e ∈ s.entityModels p, ∀ literal,
      .statement literal ∈ (repositoryModule b e).flatMap (read eventsIn) →
        ∃ sql, literal = raw sql ∧ (∀ name, .name name ∈ Sql.lexemes sql → s.IsName name) ∧
          ((∀ rest, rawLiteral? (literal.toList ++ rest) = some (sql.toList, rest)) ↔
            ∀ name, .name name ∈ Sql.lexemes sql → ¬ Sql.NameCutsRaw name) := by
  intro s e he literal hliteral
  have h : (Extraction.ofScript script dialect).catalog.Referential :=
    referential_ofStatements (dialect.resolve script) (originsOf script)
  rw [events_repositoryModule (tame_of_mem he)] at hliteral
  obtain ⟨call, hcall, hmem⟩ := List.mem_flatMap.1 hliteral
  have hraw : literal = raw call.sql := by simpa [Event.ofCall] using hmem
  -- all that the statement names is a table or column of the schema
  have hwithin : Sql.AllWithin s.IsName (Sql.lexemes call.sql) := by
    rcases List.mem_append.1 hcall with hown | hleads
    · exact Sql.allWithin_of_mem_calls (covers_of_mem h he) hown
    · obtain ⟨r, hr, rfl⟩ := List.mem_map.1 hleads
      exact Sql.allWithin_related (coversRelation_of_mem h he hr)
  have hsign : .symbol '#' ∉ Sql.lexemes call.sql := fun hmem => hwithin _ hmem rfl
  refine ⟨call.sql, hraw, fun name hname => hwithin _ hname, ?_⟩
  simp only [hraw, rawLiteral?_raw_iff, forall_const, Sql.cutsRaw_iff hsign, Sql.SomeCutsRaw,
    not_exists, not_and]

/-- A number sign does no harm behind other characters. -/
theorem statements_whole_of_trailing_sign :
    let script := "CREATE TABLE t (\"a#\" INT)"
    let s := Schema.infer (Extraction.ofScript script .generic).catalog
    let b := Blueprint.ofSchema s BuiltIn.axum {} "app"
    ∃ e ∈ s.entityModels BuiltIn.axum, ∀ literal,
      .statement literal ∈ (repositoryModule b e).flatMap (read eventsIn) →
        ∃ sql, literal = raw sql ∧
          ∀ rest, rawLiteral? (literal.toList ++ rest) = some (sql.toList, rest) := by
  intro script s b
  let t : Table :=
    { name := "t", columns := [{ name := "a#", declaredType := "INT", dataType := .integer }] }
  have hcatalog : (Extraction.ofScript script .generic).catalog = { tables := [t] } := by
    simp only [script]
    rw [Extraction.ofScript_of_toList String.toList_ofList]
    decide +kernel
  let e := Entity.build s BuiltIn.axum (.assign s BuiltIn.axum) t
  have he : e ∈ s.entityModels BuiltIn.axum :=
    build_mem_ofScript hcatalog _ (List.mem_singleton_self t) rfl
  have htables : s.tables = [t] := congrArg Catalog.tables hcatalog
  refine ⟨e, he, fun literal hliteral => ?_⟩
  obtain ⟨sql, hsql, hnames, hwhole⟩ :=
    statements_whole_iff script .generic BuiltIn.axum b e he literal hliteral
  -- the two names are `t` and `a#`, neither of which begins with the sign
  refine ⟨sql, hsql, hwhole.2 fun name hname => ?_⟩
  obtain ⟨t', ht', hcalled⟩ := hnames name hname
  rw [htables, List.mem_singleton] at ht'
  subst ht'
  rcases hcalled with rfl | hcolumn
  · decide +kernel
  · obtain rfl := List.mem_singleton.1 hcolumn
    decide +kernel

/-- A name that starts with one ends the literal. -/
theorem statement_cut_off :
    ¬ ∀ (script : String) (dialect : Sql.Dialect) (p : Profile) (b : Blueprint),
      let s := Schema.infer (Extraction.ofScript script dialect).catalog
      ∀ e ∈ s.entityModels p, ∀ sql,
        .statement (raw sql) ∈ (repositoryModule b e).flatMap (read eventsIn) →
          ¬ Sql.CutsRaw sql.toList := by
  intro h
  let script := "CREATE TABLE t (\"#a\" INT)"
  let s := Schema.infer (Extraction.ofScript script .generic).catalog
  let b := Blueprint.ofSchema s BuiltIn.axum {} "app"
  let t : Table :=
    { name := "t", columns := [{ name := "#a", declaredType := "INT", dataType := .integer }] }
  have hcatalog : (Extraction.ofScript script .generic).catalog = { tables := [t] } := by
    simp only [script]
    rw [Extraction.ofScript_of_toList String.toList_ofList]
    decide +kernel
  let e := Entity.build s BuiltIn.axum (.assign s BuiltIn.axum) t
  have he : e ∈ s.entityModels BuiltIn.axum :=
    build_mem_ofScript hcatalog _ (List.mem_singleton_self t) rfl
  let statements := Sql.Statements.ofEntity e b.features.pagination b.features.softDelete
  -- the list of rows names the column, whose quotation mark and sign end the literal
  refine h script .generic BuiltIn.axum b e he statements.list ?_ (by decide +kernel)
  rw [events_repositoryModule (tame_of_mem he)]
  refine List.mem_flatMap.2 ⟨_, List.mem_append_left _ List.mem_cons_self, ?_⟩
  exact List.mem_cons_of_mem _ List.mem_cons_self

end Rust

end CrudGen
