import CrudGen.Proofs.Server.Calls.Express
import CrudGen.Proofs.Server.Calls.Services
import CrudGen.Target.BuiltIn

/-!
# Parameters and values

The parameters of a statement are numbered where it is put together, the values are listed where it
is run, and a service decides on its own which methods there are to call. All three agree.

Main results:

* `placed` — which parameter stands for which input, for which part of the key and for the page.
* `parameters_line_up` — repositories run every statement with the values of its parameters in
  order, and services call the methods that there are.
-/

namespace CrudGen

open Code

namespace Sql

/-- What the parameters in the statements of an entity stand for. -/
structure Placed (e : Entity) (paginate softDelete : Bool) : Prop where
  list : let sql := (Statements.ofEntity e paginate softDelete).list
    parameters sql = (if paginate then [1, 2] else []) ∧
    (paginate = true → clause "LIMIT" (lexemes sql) = [.parameter 1] ∧
      clause "OFFSET" (lexemes sql) = [.parameter 2])
  count : parameters (Statements.ofEntity e paginate softDelete).count = []
  insert : let sql := (Statements.ofEntity e paginate softDelete).insert
    parameters sql = List.range' 1 (inputColumns e).length ∧
    (inputColumns e ≠ [] → inserted sql = ((inputColumns e).map fun c => [.name c],
      (List.range' 1 (inputColumns e).length).map fun n => [.parameter n]))
  update : ∀ sql ∈ (Statements.ofEntity e paginate softDelete).update,
    parameters sql = List.range' 1 ((inputColumns e).length + (keyColumns e).length) ∧
    assignments sql = ((inputColumns e).mapIdx fun i c => (c, i + 1)) ∧
    conditions sql = keyConditions (keyColumns e) ((inputColumns e).length + 1) ++
      liveConditions (marker? e softDelete)
  find : ∀ sql ∈ (Statements.ofEntity e paginate softDelete).find,
    parameters sql = List.range' 1 (keyColumns e).length ∧
    conditions sql = keyConditions (keyColumns e) 1 ++ liveConditions (marker? e softDelete)
  delete : ∀ sql ∈ (Statements.ofEntity e paginate softDelete).delete,
    parameters sql = List.range' 1 (keyColumns e).length ∧
    conditions sql = keyConditions (keyColumns e) 1 ++ liveConditions (marker? e softDelete)

theorem placed (e : Entity) (paginate softDelete : Bool) : Placed e paginate softDelete where
  list := ⟨parameters_list e, fun h => h ▸ page_list⟩
  count := parameters_count e
  insert := ⟨parameters_insert e, inserted_insert⟩
  update _ h := ⟨parameters_update h, assignments_update h, conditions_update h⟩
  find _ h := ⟨parameters_find h, conditions_find h⟩
  delete _ h := ⟨parameters_delete h, conditions_delete h⟩

/-- The statements that there are only for entities with a key, and for which of them there are
methods that a service calls. -/
structure Statements.CalledBy (s : Statements) (e : Entity) (callees : List String) : Prop where
  find : (s.find.isSome ↔ keyColumns e ≠ []) ∧ ("find" ∈ callees ↔ s.find.isSome)
  update : (s.update.isSome ↔ keyColumns e ≠ [] ∧ inputColumns e ≠ []) ∧
    ("update" ∈ callees ↔ s.update.isSome)
  delete : (s.delete.isSome ↔ keyColumns e ≠ []) ∧ ("delete" ∈ callees ↔ s.delete.isSome)

end Sql

open Sql (Statements Placed parameters keyColumns inputColumns)

section CalledBy

variable {e : Entity} {callees : List String} {keyed updatable : Bool}

/-- A service decides right if it goes by whether there is a key, and whether there are inputs. -/
theorem calledBy_of_mem (hkeyed : keyed = true ↔ keyColumns e ≠ [])
    (hupdatable : updatable = true ↔ keyColumns e ≠ [] ∧ inputColumns e ≠ [])
    (h : ("find" ∈ callees ↔ keyed = true) ∧ ("update" ∈ callees ↔ updatable = true) ∧
      ("delete" ∈ callees ↔ keyed = true)) (paginate softDelete : Bool) :
    (Statements.ofEntity e paginate softDelete).CalledBy e callees where
  find := ⟨Sql.isSome_find_iff, h.1.trans (hkeyed.trans Sql.isSome_find_iff.symm)⟩
  update := ⟨Sql.isSome_update_iff, h.2.1.trans (hupdatable.trans Sql.isSome_update_iff.symm)⟩
  delete := ⟨Sql.isSome_delete_iff, h.2.2.trans (hkeyed.trans Sql.isSome_delete_iff.symm)⟩

theorem keyed_iff : (!e.keyFields.isEmpty) = true ↔ keyColumns e ≠ [] := by
  simp [keyColumns]

theorem updatable_iff : (!e.keyFields.isEmpty && !e.inputFields.isEmpty) = true ↔
    keyColumns e ≠ [] ∧ inputColumns e ≠ [] := by
  simp [keyColumns, inputColumns]

end CalledBy

/-- **Parameters.** For every entity, with pages or not and with rows marked as deleted or not: the
inputs take the parameters from one on, then comes the key, and no other parameters occur. The
repositories have a method for each statement that there is and run it with a value for each of its
parameters, in order, which are found again between the commas of a list; the services call those
that there are. -/
theorem parameters_line_up {s : Schema} {p : Profile} {e : Entity} (he : e ∈ s.entityModels p)
    (b : Blueprint) :
    let statements := Statements.ofEntity e b.features.pagination b.features.softDelete
    Placed e b.features.pagination b.features.softDelete ∧
    ((Rust.repositoryModule b e).flatMap (read Rust.eventsIn) =
        (Rust.repositoryCalls b e ++ e.relations.map (Rust.loaderCall e)).flatMap
          Rust.Event.ofCall ∧
      ∀ call ∈ Rust.repositoryCalls b e,
        parameters call.sql = List.range' 1 call.values.length) ∧
    ((TypeScript.Express.repositoryModule b e).flatMap (read TypeScript.Express.eventsIn) =
        (TypeScript.Express.repositoryCalls b e ++
          e.relations.map (TypeScript.Express.loaderCall e)).flatMap
          TypeScript.Express.Event.ofCall ∧
      ∀ call ∈ TypeScript.Express.repositoryCalls b e,
        parameters call.sql = List.range' 1 call.values.length ∧
        (call.values ≠ [] →
          TypeScript.Express.listedValues (", ".intercalate call.values) = call.values)) ∧
    statements.CalledBy e ((Rust.serviceModule b e).flatMap (read Rust.calleesIn)) ∧
    statements.CalledBy e
      ((TypeScript.Express.serviceModule b e).flatMap (read TypeScript.Express.calleesIn)) := by
  have htame := tame_of_mem he
  have hpage : (if b.features.pagination then ["limit", "offset"] else []).length =
      if b.features.pagination then 2 else 0 := by
    split <;> rfl
  intro statements
  refine ⟨Sql.placed e _ _, ⟨Rust.events_repositoryModule htame, ?_⟩,
    ⟨TypeScript.Express.events_repositoryModule htame, ?_⟩, ?_, ?_⟩
  -- as many values as parameters, in each repository and in its two writings
  · exact fun call hcall => Sql.range'_of_mem_calls hpage (by simp [inputColumns])
      (by simp [Rust.Key.names, Rust.Key.ofEntity, keyColumns]) hcall
  · intro call hcall
    refine ⟨?_, fun hsome => TypeScript.Express.listedValues_intercalate hsome
      (TypeScript.Express.listable_of_mem_values htame call hcall)⟩
    exact Sql.range'_of_mem_calls hpage (by simp [TypeScript.Express.inputValues, inputColumns])
      (by simp [TypeScript.keyNames, keyColumns]) hcall
  -- the services call what the repository has, and nothing else
  · rw [Rust.callees_serviceModule htame]
    exact calledBy_of_mem keyed_iff updatable_iff (Rust.mem_calleesOf _ _ _ _) _ _
  · rw [TypeScript.Express.callees_serviceModule htame]
    exact calledBy_of_mem keyed_iff updatable_iff (TypeScript.Express.mem_calleesOf _ _ _) _ _

/-- A row of a table with a key of two parts, one of them an input, is changed by the inputs and found
by its key. -/
theorem parameters_line_up_of_composite :
    let script := "CREATE TABLE t (a SERIAL, b INT, c INT, deleted_at DATE, PRIMARY KEY (a, b))"
    let s := Schema.infer (Extraction.ofScript script .generic).catalog
    let b := Blueprint.ofSchema s BuiltIn.axum (({} : FeatureToggles).set "soft_delete" true) "app"
    ∃ e ∈ s.entityModels BuiltIn.axum, ∃ sql,
      Sql.Call.mk "update" sql ["&input.b", "&input.c", "&input.deleted_at", "a", "b"] ∈
        Rust.repositoryCalls b e ∧
      parameters sql = [1, 2, 3, 4, 5] ∧
      Sql.assignments sql = [("b", 1), ("c", 2), ("deleted_at", 3)] ∧
      Sql.conditions sql = [.equals "" "a" 4, .equals "" "b" 5, .isNull "" "deleted_at"] := by
  intro script s b
  let serial : Column := {
    name := "a", declaredType := "SERIAL", dataType := .integer, nullable := false,
    primaryKey := true, autoIncrement := true }
  let number : Column := {
    name := "b", declaredType := "INT", dataType := .integer, nullable := false,
    primaryKey := true }
  let t : Table := {
    name := "t"
    columns := [serial, number, { name := "c", declaredType := "INT", dataType := .integer },
      { name := "deleted_at", declaredType := "DATE", dataType := .date }]
    primaryKey := ["a", "b"] }
  have htables : (Extraction.ofScript script .generic).catalog.tables = [t] := by
    simp only [script]
    rw [Extraction.ofScript_of_toList String.toList_ofList]
    decide +kernel
  have hreferential : (Extraction.ofScript script .generic).catalog.Referential :=
    referential_ofStatements _ _
  let e := Entity.build s BuiltIn.axum (.assign s BuiltIn.axum) t
  have he : e ∈ s.entityModels BuiltIn.axum :=
    build_mem hreferential _ (htables ▸ List.mem_singleton_self t) rfl
  have hkeys : keyColumns e = ["a", "b"] := rfl
  have hinputs : inputColumns e = ["b", "c", "deleted_at"] := rfl
  have hmarker : Sql.liveConditions (Sql.marker? e b.features.softDelete) =
      [.isNull "" "deleted_at"] := by
    decide +kernel
  have hvalues : (e.inputFields.map fun f => "&input." ++ Rust.ident f.name) ++
      (Rust.Key.ofEntity e).names = ["&input.b", "&input.c", "&input.deleted_at", "a", "b"] := by
    decide +kernel
  -- with both a key and inputs there is an update, which is one of the calls
  obtain ⟨hplaced, -, -, hcalled, -⟩ := parameters_line_up he b
  obtain ⟨sql, hupdate⟩ :=
    Option.isSome_iff_exists.1 (hcalled.update.1.2 (by simp [hkeys, hinputs]))
  obtain ⟨hparameters, hassignments, hconditions⟩ := hplaced.update sql hupdate
  refine ⟨e, he, sql, ?_, ?_, ?_, ?_⟩
  · simp [Rust.repositoryCalls, Statements.calls, hupdate, hvalues]
  · rw [hparameters, hkeys, hinputs]
    rfl
  · rw [hassignments, hinputs]
    rfl
  · rw [hconditions, hkeys, hinputs, hmarker]
    rfl

end CrudGen
