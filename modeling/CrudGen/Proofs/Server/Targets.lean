import CrudGen.Proofs.Catalog.Referential
import CrudGen.Proofs.Server.JavaPaths
import CrudGen.Proofs.Server.Paths
import CrudGen.Server.BuiltIn

/-!
# Built-in targets — what comes of them

An emitter of a built-in target fails only on a path that it writes twice. The names of entities are
chosen apart from each other, but not apart from what else an emitter writes, and for some targets
there are tables whose entities are called as a shared file, or as the class for identities of
another entity. For every other script, all built-in targets are generated.

Main results:

* `builtIn_generated_iff` — when a built-in target is generated, and what the error is otherwise.
* `builtIn_fails` — a script with one table that a built-in target fails on.
-/

namespace CrudGen

open Sql

variable {b : Blueprint}

/-- The ways in which two files of a built-in target have one path. -/
inductive Blueprint.PathsMeet (b : Blueprint) : Prop
  /-- The module of an entity is called as the index of its directory. -/
  | moduleIndex {e : Entity} (hlanguage : b.profile.key.language = "rust") (he : e ∈ b.entities)
      (hfile : e.names.file = "mod")
  /-- The handler of an entity is called as the source of checks. -/
  | validator {e : Entity} (hkey : b.profile.key = ⟨"go", "echo"⟩)
      (hvalidation : b.features.validation = true) (he : e ∈ b.entities)
      (hfile : e.names.file = "validator")
  /-- The handler of an entity is called as that of the state of the server. -/
  | health {e : Entity} (hlanguage : b.profile.key.language = "java") (he : e ∈ b.entities)
      (hname : e.names.entity = "Health")
  /-- An entity is called as the class for identities of another one. -/
  | identity {e other : Entity} (hlanguage : b.profile.key.language = "java") (he : e ∈ b.entities)
      (hother : other ∈ b.entities) (hidentity : Java.hasIdentity other = true)
      (hname : e.names.entity = other.names.entity ++ "Id")

-- ---------------------------------------------------------------------------
-- One language
-- ---------------------------------------------------------------------------

/-- Paths meet in Rust if an entity's file is called as the index of its directory. -/
theorem pathsMeet_rust (h : b.profile.key.language = "rust") :
    ¬ b.PathsMeet ↔ ∀ e ∈ b.entities, e.names.file ≠ "mod" := by
  constructor
  · exact fun hfree e he hfile => hfree (.moduleIndex h he hfile)
  · rintro hfree (⟨-, he, hfile⟩ | ⟨hkey⟩ | ⟨hother⟩ | ⟨hother⟩)
    · exact hfree _ he hfile
    · exact absurd (hkey ▸ h) (by decide)
    · exact absurd (hother.symm.trans h) (by decide)
    · exact absurd (hother.symm.trans h) (by decide)

/-- Paths meet in Go if an entity's file is called `validator` and inputs are validated. -/
theorem pathsMeet_go {framework : Go.Framework} (h : b.profile.key.language = "go")
    (hframework : b.profile.key = ⟨"go", "echo"⟩ ↔ framework = .echo) :
    ¬ b.PathsMeet ↔
      (Go.validated framework b = true → ∀ e ∈ b.entities, e.names.file ≠ "validator") := by
  have hvalidated : Go.validated framework b = true ↔
      b.profile.key = ⟨"go", "echo"⟩ ∧ b.features.validation = true := by
    rw [Go.validated, Bool.and_eq_true, beq_iff_eq, hframework]
  rw [hvalidated]
  constructor
  · exact fun hfree hv e he hfile => hfree (.validator hv.1 hv.2 he hfile)
  · rintro hfree (⟨hother⟩ | ⟨hkey, hvalidation, he, hfile⟩ | ⟨hother⟩ | ⟨hother⟩)
    · exact absurd (hother.symm.trans h) (by decide)
    · exact hfree ⟨hkey, hvalidation⟩ _ he hfile
    · exact absurd (hother.symm.trans h) (by decide)
    · exact absurd (hother.symm.trans h) (by decide)

/-- Paths meet in Java if an entity is called `Health`, or as the identity of another one. -/
theorem pathsMeet_java (h : b.profile.key.language = "java") :
    ¬ b.PathsMeet ↔ (∀ e ∈ b.entities, e.names.entity ≠ "Health") ∧
      ∀ e ∈ b.entities, ∀ other ∈ b.entities, Java.hasIdentity other = true →
        e.names.entity ≠ other.names.entity ++ "Id" := by
  constructor
  · exact fun hfree => ⟨fun e he hname => hfree (.health h he hname),
      fun e he other hother hidentity hname => hfree (.identity h he hother hidentity hname)⟩
  · rintro ⟨hhealth, hfree⟩ (⟨hother⟩ | ⟨hkey⟩ | ⟨-, he, hname⟩ | ⟨-, he, hother, hidentity, hname⟩)
    · exact absurd (hother.symm.trans h) (by decide)
    · exact absurd (hkey ▸ h) (by decide)
    · exact hhealth _ he hname
    · exact hfree _ he _ hother hidentity hname

/-- Paths never meet in Python and TypeScript. -/
theorem not_pathsMeet (h : b.profile.key.language ∈ ["python", "typescript"]) : ¬ b.PathsMeet := by
  rintro (⟨hother⟩ | ⟨hkey⟩ | ⟨hother⟩ | ⟨hother⟩)
  · exact absurd (hother ▸ h) (by decide)
  · exact absurd (hkey ▸ h) (by decide)
  · exact absurd (hother ▸ h) (by decide)
  · exact absurd (hother ▸ h) (by decide)

-- ---------------------------------------------------------------------------
-- All targets
-- ---------------------------------------------------------------------------

/-- A known target whose emitter fails on nothing but paths. -/
structure Generator.Known (key : TargetKey) (p : Profile)
    (entityFiles : Blueprint → Entity → List SourceFile)
    (sharedFiles : Blueprint → List SourceFile) : Prop where
  profile : builtIn.profiles.get? key = some p
  emitter : builtIn.emitters.get? key = some (.ofFiles entityFiles sharedFiles)
  key : p.key = key
  paths : ∀ b : Blueprint, b.Named → b.profile = p →
    (((b.allFiles entityFiles sharedFiles).map (·.1)).Nodup ↔ ¬ b.PathsMeet)

/-- The built-in targets. -/
theorem targets_builtIn : Generator.builtIn.targets = [⟨"go", "echo"⟩, ⟨"go", "gin"⟩,
    ⟨"java", "spring"⟩, ⟨"python", "fastapi"⟩, ⟨"python", "flask"⟩, ⟨"rust", "actix"⟩,
    ⟨"rust", "axum"⟩, ⟨"typescript", "express"⟩, ⟨"typescript", "nestjs"⟩] := by
  decide +kernel

/-- The files of `go/echo` are those of its emitter. -/
theorem known_echo : Generator.Known ⟨"go", "echo"⟩ BuiltIn.echo (Go.entityFiles .echo)
    (Go.sharedFiles .echo) where
  profile := rfl
  emitter := rfl
  key := rfl
  paths _ h hp :=
    (Go.nodup_paths_iff h (hp ▸ rfl) .echo).trans
      (pathsMeet_go (hp ▸ rfl) (by rw [hp]; decide)).symm

theorem known_gin : Generator.Known ⟨"go", "gin"⟩ BuiltIn.gin (Go.entityFiles .gin)
    (Go.sharedFiles .gin) where
  profile := rfl
  emitter := rfl
  key := rfl
  paths _ h hp :=
    (Go.nodup_paths_iff h (hp ▸ rfl) .gin).trans
      (pathsMeet_go (hp ▸ rfl) (by rw [hp]; decide)).symm

theorem known_spring : Generator.Known ⟨"java", "spring"⟩ BuiltIn.spring Java.entityFiles
    Java.sharedFiles where
  profile := rfl
  emitter := rfl
  key := rfl
  paths _ h hp :=
    (Java.nodup_paths_iff h).trans (pathsMeet_java (hp ▸ rfl)).symm

theorem known_fastapi : Generator.Known ⟨"python", "fastapi"⟩ BuiltIn.fastapi
    (Python.entityFiles .fastApi) (Python.sharedFiles .fastApi) where
  profile := rfl
  emitter := rfl
  key := rfl
  paths _ h hp :=
    iff_of_true (Python.nodup_paths h (hp ▸ rfl) .fastApi) (not_pathsMeet (by rw [hp]; decide))

theorem known_flask : Generator.Known ⟨"python", "flask"⟩ BuiltIn.flask (Python.entityFiles .flask)
    (Python.sharedFiles .flask) where
  profile := rfl
  emitter := rfl
  key := rfl
  paths _ h hp :=
    iff_of_true (Python.nodup_paths h (hp ▸ rfl) .flask) (not_pathsMeet (by rw [hp]; decide))

theorem known_actix : Generator.Known ⟨"rust", "actix"⟩ BuiltIn.actix (Rust.entityFiles .actix)
    (Rust.sharedFiles .actix) where
  profile := rfl
  emitter := rfl
  key := rfl
  paths _ h hp :=
    (Rust.nodup_paths_iff h .actix).trans (pathsMeet_rust (hp ▸ rfl)).symm

theorem known_axum : Generator.Known ⟨"rust", "axum"⟩ BuiltIn.axum (Rust.entityFiles .axum)
    (Rust.sharedFiles .axum) where
  profile := rfl
  emitter := rfl
  key := rfl
  paths _ h hp :=
    (Rust.nodup_paths_iff h .axum).trans (pathsMeet_rust (hp ▸ rfl)).symm

theorem known_express : Generator.Known ⟨"typescript", "express"⟩ BuiltIn.express
    TypeScript.Express.entityFiles TypeScript.Express.sharedFiles where
  profile := rfl
  emitter := rfl
  key := rfl
  paths _ h hp :=
    iff_of_true (TypeScript.Express.nodup_paths h) (not_pathsMeet (by rw [hp]; decide))

theorem known_nestjs : Generator.Known ⟨"typescript", "nestjs"⟩ BuiltIn.nestjs
    TypeScript.Nest.entityFiles TypeScript.Nest.sharedFiles where
  profile := rfl
  emitter := rfl
  key := rfl
  paths _ h hp :=
    iff_of_true (TypeScript.Nest.nodup_paths h) (not_pathsMeet (by rw [hp]; decide))

/-- Every built-in target has a profile and an emitter with files of its own. -/
theorem exists_known {key : TargetKey} (h : key ∈ Generator.builtIn.targets) :
    ∃ p entityFiles sharedFiles, Generator.Known key p entityFiles sharedFiles := by
  rw [targets_builtIn] at h
  simp only [List.mem_cons, List.not_mem_nil, or_false] at h
  rcases h with rfl | rfl | rfl | rfl | rfl | rfl | rfl | rfl | rfl
  · exact ⟨_, _, _, known_echo⟩
  · exact ⟨_, _, _, known_gin⟩
  · exact ⟨_, _, _, known_spring⟩
  · exact ⟨_, _, _, known_fastapi⟩
  · exact ⟨_, _, _, known_flask⟩
  · exact ⟨_, _, _, known_actix⟩
  · exact ⟨_, _, _, known_axum⟩
  · exact ⟨_, _, _, known_express⟩
  · exact ⟨_, _, _, known_nestjs⟩

/-- A known target is generated unless two of its files have one path, which is the error then. -/
theorem Generator.Known.outcome {key : TargetKey} {p : Profile}
    {entityFiles : Blueprint → Entity → List SourceFile}
    {sharedFiles : Blueprint → List SourceFile}
    (h : Generator.Known key p entityFiles sharedFiles) {c : Catalog} (hc : c.Referential)
    (toggles : FeatureToggles) (project : String) :
    let s := Schema.infer c
    let b := Blueprint.ofSchema s p toggles project
    (¬ b.PathsMeet → ∃ files warnings, Generator.builtIn.outcome s toggles project key =
      .generated files p.dependencies warnings) ∧
    (b.PathsMeet → ∃ path, Generator.builtIn.outcome s toggles project key =
      .failed (.duplicatePath key.text path)) := by
  intro s b
  have hpaths := h.paths b (named_ofSchema hc p toggles project) rfl
  have hwritten := run_ofFiles b entityFiles sharedFiles
  have hok := hwritten.isOk_iff.trans hpaths
  have hkey : b.profile.key = key := h.key
  simp only [Generator.outcome, h.profile, h.emitter]
  rw [hkey] at hwritten
  generalize (Emitter.ofFiles entityFiles sharedFiles).run b = result at hwritten hok
  -- either all files are written, or one is met again
  cases hwritten with
  | all => exact ⟨fun _ => ⟨_, _, rfl⟩, fun hmeet => absurd hmeet (hok.1 ⟨_, rfl⟩)⟩
  | again =>
    refine ⟨fun hfree => ?_, fun _ => ⟨_, rfl⟩⟩
    obtain ⟨files, hfiles⟩ := hok.2 hfree
    cases hfiles

theorem axum_mem_targets : ⟨"rust", "axum"⟩ ∈ Generator.builtIn.targets := by
  rw [targets_builtIn]
  decide

/-- **Built-in targets.** For every script, with any features and any name of the project, a
built-in target is generated unless two of its files have one path, in one of the ways listed; then
the path is the error. -/
theorem builtIn_generated_iff (script : String) (dialect : Dialect) (toggles : FeatureToggles)
    (project : String) {key : TargetKey} (hkey : key ∈ Generator.builtIn.targets) :
    let s := Schema.infer (Extraction.ofScript script dialect).catalog
    ∃ p, ProfileSet.builtIn.get? key = some p ∧
      let b := Blueprint.ofSchema s p toggles project
      (¬ b.PathsMeet → ∃ files warnings, Generator.builtIn.outcome s toggles project key =
        .generated files p.dependencies warnings) ∧
      (b.PathsMeet → ∃ path, Generator.builtIn.outcome s toggles project key =
        .failed (.duplicatePath key.text path)) := by
  obtain ⟨p, entityFiles, sharedFiles, hknown⟩ := exists_known hkey
  have hc := referential_ofStatements (dialect.resolve script) (originsOf script)
  exact ⟨p, hknown.profile, hknown.outcome hc toggles project⟩

/-- The entity of a table `users` has its paths for itself. -/
theorem builtIn_generated_users :
    (⟨"rust", "axum"⟩ : TargetKey) ∈ Generator.builtIn.targets ∧
      let c := (Extraction.ofScript "CREATE TABLE users (id INT PRIMARY KEY)" .generic).catalog
      ∃ files warnings, Generator.builtIn.outcome (Schema.infer c) {} "app" ⟨"rust", "axum"⟩ =
        .generated files BuiltIn.axum.dependencies warnings := by
  refine ⟨axum_mem_targets, ?_⟩
  intro c
  have htables : c.tables.length = 1 := by decide +kernel
  have hnames : ∀ t ∈ c.tables, t.kind = .entity ∧ t.name = "users" := by decide +kernel
  obtain ⟨p, hprofile, hgenerated, -⟩ := builtIn_generated_iff
    "CREATE TABLE users (id INT PRIMARY KEY)" .generic {} "app" axum_mem_targets
  obtain rfl : BuiltIn.axum = p := Option.some.inj (known_axum.profile.symm.trans hprofile)
  obtain ⟨e, hentities, hname⟩ := entityModels_single htables hnames BuiltIn.axum
  refine hgenerated ((pathsMeet_rust rfl).2 fun e' he' => ?_)
  obtain rfl : e' = e := List.mem_singleton.1 (hentities ▸ he')
  rw [hname]
  decide +kernel

/-- The entity of a table `mods` is called as the index of its directory. -/
theorem builtIn_fails :
    ¬ ∀ (script : String) (dialect : Dialect) (toggles : FeatureToggles) (project : String),
      ∀ key ∈ Generator.builtIn.targets,
        let c := (Extraction.ofScript script dialect).catalog
        c.tables ≠ [] → ∃ files pins warnings,
          Generator.builtIn.outcome (Schema.infer c) toggles project key =
            .generated files pins warnings := by
  intro h
  let c := (Extraction.ofScript "CREATE TABLE mods (id INT PRIMARY KEY)" .generic).catalog
  have htables : c.tables.length = 1 := by decide +kernel
  have hnames : ∀ t ∈ c.tables, t.kind = .entity ∧ t.name = "mods" := by decide +kernel
  -- one table, an entity whose file is called `mods` as that of the shared ones
  obtain ⟨e, hentities, hname⟩ := entityModels_single htables hnames BuiltIn.axum
  have hmeet : (Blueprint.ofSchema (Schema.infer c) BuiltIn.axum {} "app").PathsMeet := by
    refine .moduleIndex rfl (hentities ▸ List.mem_singleton_self e) ?_
    rw [hname]
    decide +kernel
  have hreferential : c.Referential := referential_ofStatements _ _
  obtain ⟨path, hfailed⟩ := (known_axum.outcome hreferential {} "app").2 hmeet
  obtain ⟨files, pins, warnings, hgenerated⟩ :=
    h "CREATE TABLE mods (id INT PRIMARY KEY)" .generic {} "app" _ axum_mem_targets
      (List.ne_nil_of_length_pos (htables ▸ Nat.one_pos))
  have hsame := hfailed.symm.trans hgenerated
  cases hsame

end CrudGen
