import CrudGen.Proofs.Server.Calls.Express
import CrudGen.Proofs.Server.Calls.Rust
import CrudGen.Target.BuiltIn

/-!
# Rows that are marked as deleted

With soft deletion in effect, the statements of an entity whose rows can be marked as deleted admit
no marked row. What loads related rows asks for no mark, and admits them all the same.

Main results:

* `marked_rows_hidden_unless_related` — which of the statements that repositories run pass over
  marked rows.
* `marked_rows_loaded` — a repository loads marked rows of another entity.
-/

namespace CrudGen

open Code

namespace Sql

-- ---------------------------------------------------------------------------
-- Rows
-- ---------------------------------------------------------------------------

/-- Rows by their qualifiers, as what stands in their columns. Nothing does if it is null. -/
abbrev Rows := String → String → Option String

/-- Whether rows meet a condition, where parameters have some values. A condition that is not
understood may hold of any rows. -/
def Condition.Holds (rows : Rows) (values : Nat → Option String) : Condition → Prop
  | .equals q c n => ∃ value, rows q c = some value ∧ values n = some value
  | .isNull q c => rows q c = none
  | .joined q c q' c' => ∃ value, rows q c = some value ∧ rows q' c' = some value
  | .other => True

/-- Whether a statement passes over all rows that have something in a column. -/
def Hides (sql qualifier column : String) : Prop :=
  ∀ rows values, (∀ c ∈ conditions sql, c.Holds rows values) → rows qualifier column = none

variable {e : Entity} {paginate softDelete : Bool} {f : Field} {sql qualifier column : String}

theorem hides_of_mem (h : .isNull qualifier column ∈ conditions sql) :
    Hides sql qualifier column :=
  fun _ _ hall => hall _ h

/-- What loads related rows compares columns with values and with each other, and nothing else. So
rows with one text in all columns are loaded by this text. -/
theorem not_hides_related (r : Relation) (qualifier column : String) :
    ¬ Hides (related r) qualifier column := by
  intro hhides
  have hholds : ∀ c ∈ conditions (related r),
      c.Holds (fun _ _ => some "") (fun _ => some "") := by
    intro c hc
    cases hvia : r.via with
    | none =>
      rw [conditions_related_of_direct hvia] at hc
      obtain ⟨i, hi, rfl⟩ := List.mem_mapIdx.1 hc
      exact ⟨"", rfl, rfl⟩
    | some junction =>
      rw [conditions_related_of_junction hvia, List.mem_append] at hc
      rcases hc with hc | hc
      · obtain ⟨pair, -, rfl⟩ := List.mem_map.1 hc
        exact ⟨"", rfl, rfl⟩
      · obtain ⟨i, hi, rfl⟩ := List.mem_mapIdx.1 hc
        exact ⟨"", rfl, rfl⟩
  cases hhides _ _ hholds

-- ---------------------------------------------------------------------------
-- Statements
-- ---------------------------------------------------------------------------

theorem mem_liveConditions (h : marker? e softDelete = some f) :
    .isNull "" f.column ∈ liveConditions (marker? e softDelete) := by
  rw [h]
  exact List.mem_singleton_self _

/-- All statements of an entity but the one that creates rows pass over marked rows. -/
theorem hides_of_mem_calls {page inputs key : List String} {call : Call}
    (hmarker : marker? e softDelete = some f)
    (h : call ∈ (Statements.ofEntity e paginate softDelete).calls page inputs key) :
    call.sql = (Statements.ofEntity e paginate softDelete).insert ∨
      Hides call.sql "" f.column := by
  have hlive := mem_liveConditions hmarker
  simp only [Statements.calls, List.mem_cons, List.mem_append, List.mem_map, Option.mem_toList]
    at h
  rcases h with rfl | rfl | ⟨sql, hfind, rfl⟩ | rfl | ⟨sql, hupdate, rfl⟩ | ⟨sql, hdelete, rfl⟩
  · exact .inr (hides_of_mem (by rwa [conditions_list]))
  · exact .inr (hides_of_mem (by rwa [conditions_count]))
  · exact .inr (hides_of_mem (conditions_find hfind ▸ List.mem_append_right _ hlive))
  · exact .inl rfl
  · exact .inr (hides_of_mem (conditions_update hupdate ▸ List.mem_append_right _ hlive))
  · exact .inr (hides_of_mem (conditions_delete hdelete ▸ List.mem_append_right _ hlive))

end Sql

open Sql (Statements Hides related)

-- ---------------------------------------------------------------------------
-- Repositories
-- ---------------------------------------------------------------------------

/-- What a statement in the repository of an entity does with rows that are marked in a column: it
creates rows, passes over those that are marked, or loads what a relation leads to. -/
def Sql.Treats (e : Entity) (b : Blueprint) (column sql : String) : Prop :=
  sql = (Statements.ofEntity e b.features.pagination b.features.softDelete).insert ∨
    Hides sql "" column ∨ ∃ r ∈ e.relations, sql = related r

theorem Rust.exists_call {calls : List Sql.Call} {literal : String}
    (h : .statement literal ∈ calls.flatMap Rust.Event.ofCall) :
    ∃ call ∈ calls, literal = Rust.raw call.sql := by
  obtain ⟨call, hcall, hmem⟩ := List.mem_flatMap.1 h
  refine ⟨call, hcall, ?_⟩
  simpa [Rust.Event.ofCall] using hmem

theorem TypeScript.Express.exists_call {calls : List Sql.Call} {sql values : String}
    (h : .query sql values ∈ calls.flatMap TypeScript.Express.Event.ofCall) :
    ∃ call ∈ calls, sql = call.sql := by
  obtain ⟨call, hcall, hmem⟩ := List.mem_flatMap.1 h
  refine ⟨call, hcall, ?_⟩
  simp only [TypeScript.Express.Event.ofCall, List.mem_cons, List.not_mem_nil, reduceCtorEq,
    TypeScript.Express.Event.query.injEq, false_or, or_false] at hmem
  exact hmem.1

section Repositories

variable {s : Schema} {p : Profile} {e : Entity} {b : Blueprint} {f : Field}

theorem treats_of_mem {page inputs key : List String} {loader : Relation → Sql.Call}
    (hsoft : b.features.softDelete = true) (hf : e.softDeleteField? = some f)
    (hloader : ∀ r, (loader r).sql = related r) {call : Sql.Call}
    (hcall : call ∈ (Statements.ofEntity e b.features.pagination b.features.softDelete).calls
      page inputs key ++ e.relations.map loader) : Sql.Treats e b f.column call.sql := by
  have hmarker : Sql.marker? e b.features.softDelete = some f := by
    rw [Sql.marker?, if_pos hsoft, hf]
  rcases List.mem_append.1 hcall with hown | hleads
  · exact (Sql.hides_of_mem_calls hmarker hown).imp_right .inl
  · obtain ⟨r, hr, rfl⟩ := List.mem_map.1 hleads
    exact .inr (.inr ⟨r, hr, hloader r⟩)

/-- Posts, whose rows can be marked. -/
def postsTable : Table where
  name := "posts"
  columns := [
    { name := "id", declaredType := "INT", dataType := .integer, nullable := false,
      primaryKey := true },
    { name := "deleted_at", declaredType := "DATE", dataType := .date }]
  primaryKey := ["id"]

/-- Comments on posts. -/
def commentsTable : Table where
  name := "comments"
  columns := [{ name := "post_id", declaredType := "INT", dataType := .integer }]
  foreignKeys := [⟨none, ["post_id"], "posts", ["id"], .noAction, .noAction⟩]

/-- **Marked rows.** With soft deletion in effect, every statement that the repository of an entity
runs creates rows, passes over marked rows, or loads what a relation leads to. What leads to the
entity loads its rows in other repositories and passes over none of them. -/
theorem marked_rows_hidden_unless_related (he : e ∈ s.entityModels p)
    (hsoft : b.features.softDelete = true) (hf : e.softDeleteField? = some f) :
    (∀ literal, .statement literal ∈ (Rust.repositoryModule b e).flatMap (read Rust.eventsIn) →
      ∃ sql, literal = Rust.raw sql ∧ Sql.Treats e b f.column sql) ∧
    (∀ sql values, .query sql values ∈
        (TypeScript.Express.repositoryModule b e).flatMap (read TypeScript.Express.eventsIn) →
      Sql.Treats e b f.column sql) ∧
    ∀ other ∈ s.entityModels p, ∀ r ∈ other.relations, r.targetTable = e.table.name →
      .statement (Rust.raw (related r)) ∈
          (Rust.repositoryModule b other).flatMap (read Rust.eventsIn) ∧
        (∃ values, .query (related r) values ∈ (TypeScript.Express.repositoryModule b other).flatMap
          (read TypeScript.Express.eventsIn)) ∧
        ¬ Hides (related r) "t" f.column := by
  refine ⟨?_, ?_, ?_⟩
  · intro literal hliteral
    rw [Rust.events_repositoryModule (tame_of_mem he)] at hliteral
    obtain ⟨call, hcall, rfl⟩ := Rust.exists_call hliteral
    exact ⟨call.sql, rfl, treats_of_mem hsoft hf (fun _ => rfl) hcall⟩
  · intro sql values hquery
    rw [TypeScript.Express.events_repositoryModule (tame_of_mem he)] at hquery
    obtain ⟨call, hcall, rfl⟩ := TypeScript.Express.exists_call hquery
    exact treats_of_mem hsoft hf (fun _ => rfl) hcall
  -- a loader of another entity's relation selects from this table and tests no mark
  · intro other hother r hr _
    rw [Rust.events_repositoryModule (tame_of_mem hother),
      TypeScript.Express.events_repositoryModule (tame_of_mem hother)]
    refine ⟨?_, ⟨", ".intercalate (TypeScript.Express.loaderCall other r).values, ?_⟩,
      Sql.not_hides_related r _ _⟩
    · exact List.mem_flatMap.2 ⟨_, List.mem_append_right _ (List.mem_map_of_mem hr), by
        simp [Rust.Event.ofCall, Rust.loaderCall]⟩
    · exact List.mem_flatMap.2 ⟨_, List.mem_append_right _ (List.mem_map_of_mem hr), by
        simp [TypeScript.Express.Event.ofCall, TypeScript.Express.loaderCall]⟩

/-- Posts lead nowhere, so what is run for them creates one or passes over those that are marked. -/
theorem marked_rows_hidden_of_posts :
    let script := "CREATE TABLE posts (id INT PRIMARY KEY, deleted_at DATE)"
    let s := Schema.infer (Extraction.ofScript script .generic).catalog
    let b := Blueprint.ofSchema s BuiltIn.axum (({} : FeatureToggles).set "soft_delete" true) "app"
    ∃ e ∈ s.entityModels BuiltIn.axum, e.table.name = "posts" ∧
      ∀ literal, .statement literal ∈ (Rust.repositoryModule b e).flatMap (read Rust.eventsIn) →
        ∃ sql, literal = Rust.raw sql ∧
          (sql = (Statements.ofEntity e true true).insert ∨ Hides sql "" "deleted_at") := by
  intro script s b
  have hcatalog : (Extraction.ofScript script .generic).catalog = { tables := [postsTable] } := by
    simp only [script]
    rw [Extraction.ofScript_of_toList String.toList_ofList]
    decide +kernel
  have hreferential : (Extraction.ofScript script .generic).catalog.Referential :=
    referential_ofStatements _ _
  let e := Entity.build s BuiltIn.axum (.assign s BuiltIn.axum) postsTable
  have he : e ∈ s.entityModels BuiltIn.axum :=
    build_mem hreferential _ (by rw [hcatalog]; exact List.mem_singleton_self postsTable) rfl
  have hsoft : b.features.softDelete = true := by decide +kernel
  have hpages : b.features.pagination = true := by decide +kernel
  obtain ⟨f, hf, hcolumn⟩ : ∃ f, e.softDeleteField? = some f ∧ f.column = "deleted_at" :=
    ⟨_, rfl, rfl⟩
  -- no relation is left in a schema of one table
  have hrelations : e.relations = [] := by
    simp only [e, s, hcatalog]
    decide +kernel
  refine ⟨e, he, rfl, fun literal hliteral => ?_⟩
  obtain ⟨sql, hsql, htreats⟩ := (marked_rows_hidden_unless_related he hsoft hf).1 literal hliteral
  refine ⟨sql, hsql, ?_⟩
  rw [Sql.Treats, hrelations, hsoft, hpages, hcolumn] at htreats
  simpa using htreats

end Repositories

/-- A comment leads to its post, and its repository loads the post even if that is marked. -/
theorem marked_rows_loaded :
    ¬ ∀ (script : String) (dialect : Sql.Dialect) (toggles : FeatureToggles) (name : String),
      let s := Schema.infer (Extraction.ofScript script dialect).catalog
      ∀ p ∈ [BuiltIn.axum, BuiltIn.actix, BuiltIn.express],
        (Blueprint.ofSchema s p toggles name).features.softDelete = true →
        ∀ e ∈ s.entityModels p, ∀ marked ∈ s.entityModels p, ∀ f ∈ marked.softDeleteField?,
          ∀ r ∈ e.relations, r.targetTable = marked.table.name →
            Hides (related r) "t" f.column := by
  intro h
  let script := "CREATE TABLE posts (id INT PRIMARY KEY, deleted_at DATE); " ++
    "CREATE TABLE comments (post_id INT REFERENCES posts)"
  let s := Schema.infer (Extraction.ofScript script .generic).catalog
  have hcatalog : (Extraction.ofScript script .generic).catalog =
      { tables := [postsTable, commentsTable] } := by
    have hscript : script.toList = _ :=
      (String.toList_append).trans (congrArg₂ _ String.toList_ofList String.toList_ofList)
    rw [Extraction.ofScript_of_toList hscript]
    decide +kernel
  have hreferential : (Extraction.ofScript script .generic).catalog.Referential :=
    referential_ofStatements _ _
  let build := Entity.build s BuiltIn.axum (.assign s BuiltIn.axum)
  have hmem (t : Table) (ht : t ∈ [postsTable, commentsTable]) (hkind : t.kind = .entity) :
      build t ∈ s.entityModels BuiltIn.axum :=
    build_mem hreferential _ (by rwa [hcatalog]) hkind
  have hleads : ∃ r ∈ (build commentsTable).relations, r.targetTable = "posts" := by
    simp only [build, s, hcatalog]
    decide +kernel
  obtain ⟨r, hr, htarget⟩ := hleads
  -- the loader of `comments` runs `related`, which has no condition on the mark
  refine Sql.not_hides_related r "t" "deleted_at" ?_
  exact h script .generic (({} : FeatureToggles).set "soft_delete" true) "app" BuiltIn.axum (by simp)
    (by decide +kernel) _ (hmem commentsTable (by simp) rfl) _ (hmem postsTable (by simp) rfl) _ rfl
    r hr htarget

end CrudGen
