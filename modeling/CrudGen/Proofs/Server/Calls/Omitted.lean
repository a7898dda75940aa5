import CrudGen.Proofs.Server.Calls.Express
import CrudGen.Proofs.Server.Inputs
import CrudGen.Target.BuiltIn

/-!
# Inputs that are left out

What a row is created from may come without some of its members. The statement that creates the row
names all columns all the same, so those of members that were left out get null and not their
defaults.

Main results:

* `Sql.written_insert` — the statement that creates a row writes a value into the column of each
  input.
* `left_out_spared_iff` — a member that may be left out spares its column exactly if that admits
  null or has no default.
* `left_out_nulls` — null in a column that does not admit it.
-/

namespace CrudGen

open Code

-- ---------------------------------------------------------------------------
-- What is written
-- ---------------------------------------------------------------------------

namespace Sql

/-- A column that is inserted from a parameter, with the value for that. Parameters are counted
from one on. -/
def writtenAt (values : List String) : List Lexeme × List Lexeme → Option (String × String)
  | ([.name c], [.parameter (n + 1)]) => values[n]?.map (c, ·)
  | _ => none

/-- The columns that a call inserts from parameters, each with the value that it is given. -/
def written (call : Call) : List (String × String) :=
  ((inserted call.sql).1.zip (inserted call.sql).2).filterMap (writtenAt call.values)

theorem filterMap_writtenAt (before : List String) {columns values : List String}
    (hlength : values.length = columns.length) :
    ((columns.map fun c => [Lexeme.name c]).zip ((List.range' (before.length + 1)
      columns.length).map fun n => [.parameter n])).filterMap (writtenAt (before ++ values)) =
        columns.zip values := by
  induction columns generalizing before values with
  | nil => rfl
  | cons c columns ih =>
    obtain ⟨value, values, rfl⟩ := List.exists_cons_of_length_eq_add_one hlength
    have hvalue : writtenAt (before ++ value :: values)
        ([.name c], [.parameter (before.length + 1)]) = some (c, value) := by
      simp [writtenAt]
    have hrest := ih (before ++ [value]) (Nat.succ.inj hlength)
    rw [List.length_append, List.length_singleton, List.append_assoc, List.singleton_append]
      at hrest
    rw [List.length_cons, List.range'_succ, List.map_cons, List.map_cons, List.zip_cons_cons,
      List.filterMap_cons, hvalue, hrest, List.zip_cons_cons]

/-- The statement that creates a row writes the values of the inputs into their columns. -/
theorem written_insert {e : Entity} {paginate softDelete : Bool} {inputs : List String}
    (hinputs : inputColumns e ≠ []) (hlength : inputs.length = (inputColumns e).length) :
    written ⟨"create", (Statements.ofEntity e paginate softDelete).insert, inputs⟩ =
      (inputColumns e).zip inputs := by
  rw [written, inserted_insert hinputs]
  exact filterMap_writtenAt [] hlength

end Sql

open Sql (Call Statements inputColumns written)

-- ---------------------------------------------------------------------------
-- How rows are created
-- ---------------------------------------------------------------------------

/-- How a server creates rows: from which members, by which calls, and which of the values are null
without a member. -/
structure Creation where
  members  : List InputMember
  IsCreate : Call → Prop
  IsNull   : InputMember → String → Prop

/-- Whether null is written into a column without a member. -/
def Creation.Nulls (c : Creation) (m : InputMember) (column : String) : Prop :=
  ∃ call, c.IsCreate call ∧ ∃ value, (column, value) ∈ written call ∧ c.IsNull m value

/-- Whether an input may be left out only if its column admits null or is spared it. -/
def Creation.Spares (c : Creation) (m : InputMember) (f : Field) : Prop :=
  m.optional = true → f.type.nullable = true ∨ ¬ c.Nulls m f.column

/-- How rows are created: an `Option` that was left out is `None`, and `None` is bound as null. -/
def Rust.creation (b : Blueprint) (e : Entity) : Creation where
  members := createMembers b e
  IsCreate call := call.method = "create" ∧
    Event.ofCall call <:+: (repositoryModule b e).flatMap (read eventsIn)
  IsNull m value := (∃ inner, m.type = "Option<" ++ inner ++ ">") ∧ value = "&input." ++ m.name

/-- How rows are created: what was left out is replaced by null. -/
def TypeScript.Express.creation (b : Blueprint) (e : Entity) : Creation where
  members := createMembers b e
  IsCreate call := call.method = "create" ∧
    Event.ofCall call <:+: (repositoryModule b e).flatMap (read eventsIn) ∧
    listedValues (", ".intercalate call.values) = call.values
  IsNull m value := value = s!"input.{m.name} ?? null"

/-- How servers in Rust and for Express create rows. -/
def creations : List (Blueprint → Entity → Creation) :=
  [Rust.creation, TypeScript.Express.creation]

section Creations

variable {e : Entity} {f : Field}

theorem create_mem_calls (st : Statements) (page inputs key : List String) :
    ⟨"create", st.insert, inputs⟩ ∈ st.calls page inputs key := by
  simp [Statements.calls]

theorem mem_written (paginate softDelete : Bool) (value : Field → String) (hf : f ∈ e.inputFields) :
    (f.column, value f) ∈ written ⟨"create", (Statements.ofEntity e paginate softDelete).insert,
      e.inputFields.map value⟩ := by
  have hsome : inputColumns e ≠ [] := by
    simpa [inputColumns] using List.ne_nil_of_mem hf
  rw [Sql.written_insert hsome (by simp [inputColumns]), inputColumns, List.zip_map', List.mem_map]
  exact ⟨f, hf, rfl⟩

theorem Rust.nulls_memberOf (h : e.Tame) (b : Blueprint) (hf : f ∈ e.inputFields)
    (hoptional : f.isRequiredInput = false) (hnullable : f.type.nullable = false) :
    (Rust.creation b e).Nulls (Rust.memberOf f) f.column := by
  refine ⟨_, ⟨rfl, ?_⟩, _, mem_written b.features.pagination b.features.softDelete
    (fun f => "&input." ++ Rust.ident f.name) hf, ⟨f.type.inner, ?_⟩, rfl⟩
  · rw [Rust.events_repositoryModule h]
    exact List.infix_of_mem_flatten
      (List.mem_map_of_mem (List.mem_append_left _ (create_mem_calls _ _ _ _)))
  · rw [Rust.memberOf, Rust.createType, hoptional, hnullable]
    rfl

theorem TypeScript.Express.nulls_memberOf (h : e.Tame) (b : Blueprint) (hf : f ∈ e.inputFields) :
    (TypeScript.Express.creation b e).Nulls (TypeScript.Express.memberOf b f) f.column := by
  have hcall : ⟨"create", _, _⟩ ∈ TypeScript.Express.repositoryCalls b e :=
    create_mem_calls _ _ _ _
  refine ⟨_, ⟨rfl, ?_, ?_⟩, _, mem_written b.features.pagination b.features.softDelete
    (fun f => s!"input.{f.name} ?? null") hf, rfl⟩
  · rw [TypeScript.Express.events_repositoryModule h]
    exact List.infix_of_mem_flatten (List.mem_map_of_mem (List.mem_append_left _ hcall))
  · exact TypeScript.Express.listedValues_intercalate (by simpa using List.ne_nil_of_mem hf)
      (TypeScript.Express.listable_of_mem_values h _ hcall)

/-- There is a member for each input. It may be left out unless the input is required, and then a
column that does not admit null gets it. -/
theorem forall₂_members (h : e.Tame) (b : Blueprint) : ∀ creation ∈ creations,
    List.Forall₂ (fun m f => f.isGenerated = false ∧ m.optional = !f.isRequiredInput ∧
      (f.isRequiredInput = false → f.type.nullable = false → (creation b e).Nulls m f.column))
      (creation b e).members e.inputFields := by
  have hgenerated : ∀ f ∈ e.inputFields, f.isGenerated = false := by
    simp [Entity.inputFields]
  have hrust : (Rust.creation b e).members = e.inputFields.map Rust.memberOf :=
    Rust.createMembers_eq h b
  have hexpress : (TypeScript.Express.creation b e).members =
      e.inputFields.map (TypeScript.Express.memberOf b) :=
    TypeScript.Express.createMembers_eq h b
  rw [creations, List.forall_mem_cons, List.forall_mem_singleton, hrust, hexpress,
    List.forall₂_map_left_iff, List.forall₂_map_left_iff, List.forall₂_same, List.forall₂_same]
  exact ⟨fun f hf => ⟨hgenerated f hf, rfl, Rust.nulls_memberOf h b hf⟩,
    fun f hf => ⟨hgenerated f hf, rfl, fun _ _ => TypeScript.Express.nulls_memberOf h b hf⟩⟩

end Creations

-- ---------------------------------------------------------------------------
-- Columns that are spared
-- ---------------------------------------------------------------------------

section Columns

variable {s : Schema} {p : Profile} {e : Entity} {f : Field}

theorem isRequiredInput_eq_false_iff (h : f.isGenerated = false) :
    f.isRequiredInput = false ↔ f.type.nullable = true ∨ f.default ≠ none := by
  cases hnullable : f.type.nullable <;>
    simp [Field.isRequiredInput, h, hnullable, Option.isSome_iff_ne_none]

/-- A member that may be left out spares its column unless that has a default and admits no null. -/
theorem spares_iff {c : Creation} {m : InputMember} (hgenerated : f.isGenerated = false)
    (hoptional : m.optional = !f.isRequiredInput)
    (hnulls : f.isRequiredInput = false → f.type.nullable = false → c.Nulls m f.column) :
    c.Spares m f ↔ f.type.nullable = true ∨ f.default = none := by
  have hrequired := isRequiredInput_eq_false_iff hgenerated
  constructor
  · intro hspares
    by_contra hneither
    rw [not_or, Bool.not_eq_true] at hneither
    have hleft : f.isRequiredInput = false := hrequired.2 (.inr hneither.2)
    rcases hspares (by rw [hoptional, hleft]; rfl) with hadmits | hspared
    · rw [hneither.1] at hadmits
      cases hadmits
    · exact hspared (hnulls hleft hneither.1)
  · rintro (hnullable | hdefault) hmay
    · exact .inl hnullable
    · rw [hoptional, Bool.not_eq_true'] at hmay
      exact .inl ((hrequired.1 hmay).resolve_right (not_not.2 hdefault))

/-- **Inputs that are left out.** Rows are created from a member for each input, which may be left
out exactly if the input is not required. That never writes null where the column does not admit it,
exactly if the column admits null or has no default. -/
theorem left_out_spared_iff (he : e ∈ s.entityModels p) (b : Blueprint) : ∀ creation ∈ creations,
    List.Forall₂ (fun m f => (m.optional = true ↔ f.isRequiredInput = false) ∧
      ((creation b e).Spares m f ↔ f.type.nullable = true ∨ f.default = none))
      (creation b e).members e.inputFields := by
  intro creation hcreation
  refine (forall₂_members (tame_of_mem he) b creation hcreation).imp ?_
  rintro m f ⟨hgenerated, hoptional, hnulls⟩
  exact ⟨by rw [hoptional, Bool.not_eq_true'], spares_iff hgenerated hoptional hnulls⟩

theorem forall₂_iff_forall {α β : Type} {P : α → β → Prop} {Q : β → Prop} {as : List α}
    {bs : List β} (h : List.Forall₂ (fun a b => P a b ↔ Q b) as bs) :
    List.Forall₂ P as bs ↔ ∀ b ∈ bs, Q b := by
  induction h with
  | nil => simp
  | cons hab _ ih => rw [List.forall₂_cons, List.forall_mem_cons, hab, ih]

/-- A table with a column that has a default. -/
def defaultedTable (nullable : Bool) : Table where
  name := "t"
  columns := [
    { name := "id", declaredType := "INT", dataType := .integer, nullable := false,
      primaryKey := true },
    { name := "a", declaredType := "INT", dataType := .integer, nullable, default := some "1" }]
  primaryKey := ["id"]

/-- A column with a default is spared if it admits null. -/
theorem left_out_spared_of_nullable :
    let script := "CREATE TABLE t (id INT PRIMARY KEY, a INT DEFAULT 1)"
    let s := Schema.infer (Extraction.ofScript script .generic).catalog
    let b := Blueprint.ofSchema s BuiltIn.axum {} "app"
    ∃ e ∈ s.entityModels BuiltIn.axum, e.inputFields.map (·.isRequiredInput) = [true, false] ∧
      ∀ creation ∈ creations,
        List.Forall₂ (creation b e).Spares (creation b e).members e.inputFields := by
  intro script s b
  have hcatalog : (Extraction.ofScript script .generic).catalog =
      { tables := [defaultedTable true] } := by
    simp only [script]
    rw [Extraction.ofScript_of_toList String.toList_ofList]
    decide +kernel
  have he := build_mem_ofScript hcatalog BuiltIn.axum (List.mem_singleton_self _) rfl
  refine ⟨_, he, rfl, fun creation hcreation => ?_⟩
  have hspares := (left_out_spared_iff he b creation hcreation).imp fun _ _ => And.right
  rw [forall₂_iff_forall hspares]
  decide

/-- A number that was left out is null in a column that does not admit it and has a default. -/
theorem left_out_nulls :
    ¬ ∃ server ∈ [(BuiltIn.axum, Rust.creation), (BuiltIn.actix, Rust.creation),
        (BuiltIn.express, TypeScript.Express.creation)],
      ∀ (script : String) (dialect : Sql.Dialect) (toggles : FeatureToggles) (name : String),
        let s := Schema.infer (Extraction.ofScript script dialect).catalog
        let b := Blueprint.ofSchema s server.1 toggles name
        ∀ e ∈ s.entityModels server.1,
          List.Forall₂ (server.2 b e).Spares (server.2 b e).members e.inputFields := by
  rintro ⟨server, hserver, h⟩
  have hcreation : server.2 ∈ creations := by
    simp only [List.mem_cons, List.not_mem_nil, or_false] at hserver
    rcases hserver with rfl | rfl | rfl <;> simp [creations]
  let script := "CREATE TABLE t (id INT PRIMARY KEY, a INT NOT NULL DEFAULT 1)"
  have hcatalog : (Extraction.ofScript script .generic).catalog =
      { tables := [defaultedTable false] } := by
    simp only [script]
    rw [Extraction.ofScript_of_toList String.toList_ofList]
    decide +kernel
  have he := build_mem_ofScript hcatalog server.1 (List.mem_singleton_self _) rfl
  have hmembers := forall₂_members (tame_of_mem he)
    (Blueprint.ofSchema (.infer (Extraction.ofScript script .generic).catalog) server.1 {} "app") _
    hcreation
  have hspares := (forall₂_iff_forall (hmembers.imp (by
    rintro m f ⟨hgenerated, hoptional, hnulls⟩
    exact spares_iff hgenerated hoptional hnulls))).1 (h script .generic {} "app" _ he)
  -- the column `a` is an input and may be left out, so its member would have to be spared
  have hnumber := hspares _ (List.mem_cons_of_mem _ List.mem_cons_self)
  rcases hnumber with hnullable | hdefault
  · cases hnullable
  · cases hdefault

end Columns

end CrudGen
