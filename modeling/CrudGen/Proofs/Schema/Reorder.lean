import CrudGen.Proofs.Catalog.Reorder
import CrudGen.Proofs.Schema.Kinds

/-!
# Schemas — statements in another order

A schema that is inferred from tables in another order has the same kinds, relationships and
reports. As the passes over a script make the same tables of its statements in another order, the
order of declarations is irrelevant to what is inferred from them.

Main results:

* `outcomesOf_perm` — what the foreign keys of tables yield does not depend on their order.
* `ofStatements_reorder` — statements in another order.
-/

namespace CrudGen

open Sql (Dialect Token)

/-- What foreign keys yield depends on the tables, and not on their order. -/
theorem outcomesOf_perm {tables tables' : List Table} (h : tables.Perm tables') :
    (outcomesOf tables).Perm (outcomesOf tables') := by
  have hjunction (name : String) : (tables.any fun t => t.name == name && t.isJunction) =
      tables'.any fun t => t.name == name && t.isJunction := h.any_eq
  unfold outcomesOf
  simp only [hjunction]
  exact h.flatMap_right _

variable {c c' : Catalog}

theorem classified_perm (h : c.tables.Perm c'.tables) :
    (Schema.infer c).classified.Perm (Schema.infer c').classified := by
  rw [classified_infer, classified_infer]
  exact h.map _

theorem kind?_of_perm (h : c.tables.Perm c'.tables) (hnodup : (c.tables.map (·.name)).Nodup)
    (name : String) : (Schema.infer c).kind? name = (Schema.infer c').kind? name := by
  have hkeys : ((Schema.infer c).classified.map (·.1.name)).Nodup := by
    rw [classified_infer, List.map_map]
    exact hnodup
  exact congrArg _ ((AgreeBy.of_perm (classified_perm h) hkeys).find? name)

/-- **Reordering.** Statements that declare tables and enumerations of different names may come in
any order that keeps the order of the changes among themselves. The tables are the same, each with
all its parts in their order, and so are the references that lead nowhere, the kinds of the tables
and their relationships. -/
theorem ofStatements_reorder (dialect : Dialect) {ss ss' : List (String × List Token)}
    (hperm : ss.Perm ss') (hchanges : changesOf dialect ss = changesOf dialect ss')
    (htables : DistinctNames ((definitionsOf dialect ss).map (·.table.name)))
    (henums : DistinctNames ((enumsOf dialect ss).map (·.name))) :
    let x := Extraction.ofStatements dialect (numbered ss)
    let x' := Extraction.ofStatements dialect (numbered ss')
    let s := Schema.infer x.catalog
    let s' := Schema.infer x'.catalog
    x.catalog.tables.Perm x'.catalog.tables ∧ x.unresolved.Perm x'.unresolved ∧
      (∀ name, s.kind? name = s'.kind? name) ∧ s.classified.Perm s'.classified ∧
      s.relationships.Perm s'.relationships ∧ s.unresolved.Perm s'.unresolved := by
  intro x x' s s'
  -- numbers and excerpts play no part in what statements declare
  unfold changesOf definitionsOf enumsOf at *
  rw [← readable_numbered dialect ss, ← readable_numbered dialect ss'] at hchanges
  rw [← readable_numbered dialect ss] at htables henums
  have hreadable : (readable dialect (numbered ss)).Perm (readable dialect (numbered ss')) := by
    rw [readable_numbered, readable_numbered]
    exact (hperm.map _).filterMap _
  obtain ⟨hagree, hunresolved⟩ := agree_ofStatements hreadable hchanges htables henums
  have hcatalog : x.catalog.tables.Perm x'.catalog.tables := hagree.perm
  have hnodup := (referential_ofStatements dialect (numbered ss)).distinct.nodup
  have houtcomes := outcomesOf_perm hcatalog
  exact ⟨hcatalog, hunresolved, kind?_of_perm hcatalog hnodup, classified_perm hcatalog,
    houtcomes.filterMap _, houtcomes.filterMap _⟩

/-- A change may come before its table, and a reference before what it refers to. -/
theorem ofStatements_reorder_of_forward :
    let target := statementOf "CREATE TABLE a (i INT PRIMARY KEY)"
    let source := statementOf "CREATE TABLE b (x INT REFERENCES A)"
    let change := statementOf "CREATE UNIQUE INDEX j ON b (x)"
    let forward := [change, source, target]
    let backward := [target, source, change]
    forward.Perm backward ∧ changesOf .generic forward = changesOf .generic backward ∧
      DistinctNames ((definitionsOf .generic forward).map (·.table.name)) ∧
      DistinctNames ((enumsOf .generic forward).map (·.name)) ∧
      let s := Schema.infer (Extraction.ofStatements .generic (numbered forward)).catalog
      let s' := Schema.infer (Extraction.ofStatements .generic (numbered backward)).catalog
      -- backwards the target comes first, so that no reference is a forward one
      s.relationships.Perm s'.relationships := by
  intro target source change forward backward
  have hperm : forward.Perm backward := (List.reverse_perm forward).symm
  have hchanges : changesOf .generic forward = changesOf .generic backward := by decide +kernel
  have htables : DistinctNames ((definitionsOf .generic forward).map (·.table.name)) := by
    unfold DistinctNames
    decide +kernel
  have henums : DistinctNames ((enumsOf .generic forward).map (·.name)) := by
    unfold DistinctNames
    decide +kernel
  obtain ⟨-, -, -, -, hrelationships, -⟩ :=
    ofStatements_reorder .generic hperm hchanges htables henums
  exact ⟨hperm, hchanges, htables, henums, hrelationships⟩

end CrudGen
