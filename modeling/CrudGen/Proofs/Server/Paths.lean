import CrudGen.Proofs.Naming.Singular
import CrudGen.Proofs.Server.Layout
import CrudGen.Server.Go.Emitter
import CrudGen.Server.Python.Emitter
import CrudGen.Server.Rust.Emitter
import CrudGen.Server.TypeScript.Emitter
import CrudGen.Target.BuiltIn

/-!
# Paths of modules

Where the languages with modules put the files of a server, and when two of them have the same path.

Main results:

* `Rust.layout`, `Python.layout`, `Go.layout` — where the files of a server are.
* `Python.nodup_paths`, `TypeScript.Express.nodup_paths`, `TypeScript.Nest.nodup_paths` — the paths
  of all files differ.
* `Rust.nodup_paths_iff`, `Go.nodup_paths_iff` — when they do.
-/

namespace CrudGen.Rust

/-! ### Rust

The files of an entity stand in five directories, each of which has a module index `mod.rs`. An
entity whose file is called `mod` therefore has the path of the index, and no other has a path of
another file.
-/

/-- The directories of the files of entities. -/
def directories : List String :=
  ["models", "dto", "repositories", "services", "routes"]

/-- The files of entities in a directory. -/
def slot : String → Slot :=
  .inDirectory "src/" (·.names.file) ".rs"

def slots : List Slot :=
  directories.map slot

/-- The modules that all entities share, with all features. -/
def sharedModules : List String :=
  ["models/mod", "dto/mod", "repositories/mod", "services/mod", "routes/mod", "state", "error",
    "main"] ++ ["pagination"] ++ ["auth"] ++ ["rate_limit"] ++ ["cache"]

def sharedPaths : List String :=
  sharedModules.map fun module => "src/" ++ module ++ ".rs"

/-- Every directory has a module index. -/
theorem stemsIn_sharedPaths : ∀ slot ∈ slots, slot.stemsIn sharedPaths = ["mod"] := by
  simp only [Slot.stemsIn_eq, sharedPaths, sharedModules, List.cons_append, List.nil_append,
    List.map_cons, List.map_nil, String.toList_append, String.reduceToList]
  decide

/-- The files of a server stand in five directories, and beside them. -/
theorem layout (framework : Framework) (b : Blueprint) :
    Layout b (entityFiles framework) (sharedFiles framework) slots sharedPaths where
  own _ := rfl
  rest := by
    simp only [sharedPaths, sharedModules, List.map_append]
    refine sublist_paths_append (sublist_paths_append (sublist_paths_append (sublist_paths_append
      (.refl _) ?_) ?_) ?_) ?_ <;> exact sublist_paths_ite rfl
  apart := Slot.pairwise_apart_inDirectory (by simp [directories]) (by simp [directories])
  once := nodup_paths_of_modules (by simp [sharedModules])

/-- The paths of all files differ unless an entity's file is called `mod`. -/
theorem nodup_paths_iff {b : Blueprint} (h : b.Named) (framework : Framework) :
    ((b.allFiles (entityFiles framework) (sharedFiles framework)).map (·.1)).Nodup ↔
      ∀ e ∈ b.entities, e.names.file ≠ "mod" := by
  have hstems := h.pairwise_stems slots fun slot hslot e _ e' _ hsame => by
    rwa [Slot.stem_of_mem_map hslot, Slot.stem_of_mem_map hslot] at hsame
  rw [(layout framework b).nodup_iff hstems]
  constructor
  · intro hfree e he hfile
    have hpath : (slot "models").path e = "src/" ++ "models/mod" ++ ".rs" :=
      congrArg (fun stem => "src/" ++ "models" ++ "/" ++ stem ++ ".rs") hfile
    refine hfree e he (slot "models") List.mem_cons_self ?_
    rw [hpath]
    exact List.mem_cons_self
  · intro hfree e he slot hslot hmem
    have hstem := (layout framework b).stem_mem hmem
    rw [stemsIn_sharedPaths _ hslot, Slot.stem_of_mem_map hslot, List.mem_singleton] at hstem
    exact hfree e he hstem

end CrudGen.Rust

namespace CrudGen.TypeScript

/-! ### TypeScript

The files of an entity say behind its name what they are, or stand in a directory of it. No file
that the entities share does so, and the paths of all files differ.
-/

-- ---------------------------------------------------------------------------
-- Express
-- ---------------------------------------------------------------------------

namespace Express

/-- The directories of the files of entities, with what stands behind the name of the entity. -/
def slots : List Slot :=
  [("models", ""), ("dto", ".dto"), ("repositories", ".repository"), ("services", ".service"),
    ("routes", ".routes")].map fun (directory, role) =>
    { before := "src/" ++ directory ++ "/", stem := (·.names.file), after := role ++ ".ts" }

/-- The modules that all entities share, with all features. -/
def sharedModules : List String :=
  ["routes/index", "app", "server", "db", "middleware/error"] ++ ["pagination"]
    ++ ["middleware/auth"] ++ ["middleware/rate-limit"]

def sharedPaths : List String :=
  sharedModules.map fun module => "src/" ++ module ++ ".ts"

/-- No shared file says behind its name what it is. -/
theorem stemsIn_sharedPaths : ∀ slot ∈ slots, slot.stemsIn sharedPaths = [] := by
  simp only [Slot.stemsIn_eq, sharedPaths, sharedModules, List.cons_append, List.nil_append,
    List.map_cons, List.map_nil, String.toList_append, String.reduceToList]
  decide

/-- Four files of an entity say so. -/
theorem layout (b : Blueprint) : Layout b entityFiles sharedFiles slots sharedPaths where
  own _ := by
    simp [entityFiles, sourceFile, slots, Slot.path, toString_text, ← String.toList_inj]
  rest := by
    simp only [sharedPaths, sharedModules, List.map_append]
    refine sublist_paths_append (sublist_paths_append (sublist_paths_append (.refl _) ?_) ?_) ?_ <;>
      exact sublist_paths_ite rfl
  apart := by
    refine List.pairwise_map.2 (List.Pairwise.imp (fun {p q} (h : p.1 ≠ q.1 ∧ '/' ∉ p.1.toList ∧
      '/' ∉ q.1.toList) => Slot.apart_of_directories rfl rfl h.2.1 h.2.2 h.1) ?_)
    simp
  once := nodup_paths_of_modules (by simp [sharedModules])

/-- The paths of all files differ. -/
theorem nodup_paths {b : Blueprint} (h : b.Named) :
    ((b.allFiles entityFiles sharedFiles).map (·.1)).Nodup := by
  have hstems := h.pairwise_stems slots fun slot hslot e _ e' _ hsame => by
    obtain ⟨place, -, rfl⟩ := List.mem_map.1 hslot
    exact hsame
  refine ((layout b).nodup_iff hstems).2 fun e _ slot hslot hmem => ?_
  have hstem := (layout b).stem_mem hmem
  rw [stemsIn_sharedPaths _ hslot] at hstem
  exact List.not_mem_nil hstem

end Express

-- ---------------------------------------------------------------------------
-- Nest
-- ---------------------------------------------------------------------------

namespace Nest

/-- A file of an entity in its directory or in one below it. -/
def slot (below role : String) : Slot where
  before := "src/"
  stem e := e.names.file ++ below ++ "/" ++ e.names.file
  after := role ++ ".ts"

def slots : List Slot :=
  [("", ".entity"), ("/dto", ".dto"), ("", ".repository"), ("", ".service"), ("", ".controller"),
    ("", ".module")].map fun (below, role) => slot below role

/-- The modules that all entities share, with all features. -/
def sharedModules : List String :=
  ["app.module", "main"] ++ ["common/pagination"] ++ ["common/jwt.guard"]

def sharedPaths : List String :=
  sharedModules.map fun module => "src/" ++ module ++ ".ts"

/-- A shared file may say what it is, but then it stands in no directory. -/
theorem stemsIn_sharedPaths :
    ∀ slot ∈ slots, ∀ stem ∈ slot.stemsIn sharedPaths, '/' ∉ stem.toList := by
  simp only [Slot.stemsIn_eq, sharedPaths, sharedModules, List.cons_append, List.nil_append,
    List.map_cons, List.map_nil, String.toList_append, String.reduceToList]
  decide

/-- The files of an entity stand in its own directory. -/
theorem layout (b : Blueprint) : Layout b entityFiles sharedFiles slots sharedPaths where
  own _ := by
    simp [entityFiles, sourceFile, slots, slot, Slot.path, toString_text, ← String.toList_inj]
  rest := by
    simp only [sharedPaths, sharedModules, List.map_append]
    refine sublist_paths_append (sublist_paths_append (.refl _) ?_) ?_ <;>
      exact sublist_paths_ite rfl
  apart := by decide
  once := nodup_paths_of_modules (by simp [sharedModules])

/-- Every file of an entity is called as its directory. -/
theorem stem_of_mem {slot : Slot} (h : slot ∈ slots) :
    ∃ below, ∀ e, slot.stem e = e.names.file ++ below ++ "/" ++ e.names.file := by
  obtain ⟨⟨below, role⟩, -, rfl⟩ := List.mem_map.1 h
  exact ⟨below, fun _ => rfl⟩

/-- The paths of all files differ. -/
theorem nodup_paths {b : Blueprint} (h : b.Named) :
    ((b.allFiles entityFiles sharedFiles).map (·.1)).Nodup := by
  have hstems := h.pairwise_stems slots fun slot hslot e _ e' _ hsame => by
    obtain ⟨below, hstem⟩ := stem_of_mem hslot
    rw [hstem, hstem] at hsame
    have hlist := congrArg String.toList hsame
    have hlength := congrArg List.length hlist
    simp only [String.toList_append, List.length_append] at hlist hlength
    exact String.toList_inj.1 (List.append_inj' hlist (by omega)).2
  refine ((layout b).nodup_iff hstems).2 fun e _ slot hslot hmem => ?_
  obtain ⟨below, hstem⟩ := stem_of_mem hslot
  refine stemsIn_sharedPaths _ hslot _ ((layout b).stem_mem hmem) ?_
  simp [hstem]

end Nest

end CrudGen.TypeScript

namespace CrudGen.Python

open Naming

/-! ### Python

The directories with files of entities have a module `__init__` besides, and that of models has
`associations`. No module is called that after an entity: a name in snake case does not begin with
an underscore, and it is in the singular.
-/

/-- The directories of the files of entities. -/
def directories : List String :=
  ["models", "schemas", "repositories", "services", "routes"]

/-- The files of entities in a directory. -/
def slot : String → Slot :=
  .inDirectory "app/" moduleOf ".py"

def slots : List Slot :=
  directories.map slot

/-- The modules that all entities share with one framework, with all features. -/
def ownModules : Framework → List String
  | .fastApi => ["main", "routes/__init__", "database"] ++ ["pagination"] ++ ["auth"]
    ++ ["rate_limit"] ++ ["cache"]
  | .flask => ["factory", "routes/__init__", "extensions"] ++ ["pagination"] ++ ["auth"]

/-- The modules that all entities share, with all features. -/
def sharedModules (framework : Framework) : List String :=
  ["__init__", "models/__init__", "models/associations", "schemas/__init__",
    "repositories/__init__", "services/__init__"] ++ ownModules framework

def sharedPaths (framework : Framework) : List String :=
  (sharedModules framework).map fun module => "app/" ++ module ++ ".py"

/-- Besides the files of entities, a slot has `__init__` or `associations` in it. -/
theorem stemsIn_sharedPaths (framework : Framework) :
    ∀ slot ∈ slots, ∀ stem ∈ slot.stemsIn (sharedPaths framework),
      stem = "__init__" ∨ stem = "associations" := by
  cases framework
  all_goals
    simp only [Slot.stemsIn_eq, sharedPaths, sharedModules, ownModules, List.cons_append,
      List.nil_append, List.map_cons, List.map_nil, String.toList_append, String.reduceToList]
    decide

/-- The files of a server stand in the directories of its framework. -/
theorem layout (framework : Framework) (b : Blueprint) :
    Layout b (entityFiles framework) (sharedFiles framework) slots (sharedPaths framework) where
  own _ := by
    simp [entityFiles, sourceFile, slots, directories, slot, Slot.inDirectory, Slot.path,
      toString_text, ← String.toList_inj]
  rest := by
    cases framework with
    | fastApi =>
      simp only [sharedPaths, sharedModules, ownModules, List.map_append]
      refine sublist_paths_append (.refl _) (sublist_paths_append (sublist_paths_append
        (sublist_paths_append (sublist_paths_append (.refl _) ?_) ?_) ?_) ?_) <;>
        exact sublist_paths_ite rfl
    | flask =>
      simp only [sharedPaths, sharedModules, ownModules, List.map_append]
      refine sublist_paths_append (.refl _) (sublist_paths_append (sublist_paths_append
        (.refl _) ?_) ?_) <;> exact sublist_paths_ite rfl
  apart := Slot.pairwise_apart_inDirectory (by simp [directories]) (by simp [directories])
  once := nodup_paths_of_modules (by cases framework <;> simp [sharedModules, ownModules])

-- ---------------------------------------------------------------------------
-- Names of modules
-- ---------------------------------------------------------------------------

/-- Names that do not end with an underscore are told apart from keywords in a reversible way. -/
theorem ident_injective {a b : String} (ha : a.toList.getLast? ≠ some '_')
    (hb : b.toList.getLast? ≠ some '_') (h : ident a = ident b) : a = b := by
  have hends (s : String) : (s ++ "_").toList.getLast? = some '_' := by
    simp
  unfold ident at h
  split at h <;> split at h
  · exact (String.append_left_inj "_").1 h
  · exact absurd (h ▸ hends a) hb
  · exact absurd (h ▸ hends b) ha
  · exact h

/-- A name that is marked as no keyword is the one that was meant. -/
theorem ident_eq {name : String} {m : String} (hm : m ∉ keywords.map (· ++ "_"))
    (h : ident name = m) : name = m := by
  unfold ident at h
  split at h
  · rename_i hkeyword
    exact absurd (List.mem_map.2 ⟨name, by simpa using hkeyword, h⟩) hm
  · exact h

section

variable {b : Blueprint} (h : b.Named) (hp : b.profile.toConventions = BuiltIn.python) {e : Entity}
  (he : e ∈ b.entities)

include h hp he

/-- The file of an entity is called in snake case. -/
theorem exists_file : ∃ name, e.names.file = Casing.toSnake (singularSnake name) := by
  have hcasing : b.profile.casing .file = .snake := by
    rw [Profile.casing, hp]
    rfl
  have hplural : b.profile.plural.contains .file = false := by
    rw [hp]
    rfl
  exact h.exists_file hcasing hplural he

theorem file_ends : e.names.file.toList.head? ≠ some '_' ∧
    e.names.file.toList.getLast? ≠ some '_' := by
  obtain ⟨name, hfile⟩ := exists_file h hp he
  rw [hfile]
  exact toSnake_ends _

/-- No entity has a module called `__init__`. -/
theorem moduleOf_ne_init : moduleOf e ≠ "__init__" := by
  intro hinit
  have hfile := ident_eq (by decide) hinit
  exact (file_ends h hp he).1 (hfile ▸ rfl)

/-- No entity has a module called `associations`. -/
theorem moduleOf_ne_associations : moduleOf e ≠ "associations" := by
  intro hassociations
  have hfile := ident_eq (by decide) hassociations
  obtain ⟨name, hname⟩ := exists_file h hp he
  have hends : (Casing.toSnake (singularSnake name)).toList =
      "associatio".toList ++ ['n', 's'] := by
    rw [← hname, hfile]
    rfl
  exact absurd (singular_ends hends (by decide)) (by decide)

end

/-- The paths of all files differ. -/
theorem nodup_paths {b : Blueprint} (h : b.Named)
    (hp : b.profile.toConventions = BuiltIn.python) (framework : Framework) :
    ((b.allFiles (entityFiles framework) (sharedFiles framework)).map (·.1)).Nodup := by
  have hstems := h.pairwise_stems slots fun slot hslot e he e' he' hsame => by
    rw [Slot.stem_of_mem_map hslot, Slot.stem_of_mem_map hslot] at hsame
    exact ident_injective (file_ends h hp he).2 (file_ends h hp he').2 hsame
  refine ((layout framework b).nodup_iff hstems).2 fun e he slot hslot hmem => ?_
  have hstem := (layout framework b).stem_mem hmem
  rw [Slot.stem_of_mem_map hslot] at hstem
  rcases stemsIn_sharedPaths framework slot hslot _ hstem with hinit | hassociations
  · exact moduleOf_ne_init h hp he hinit
  · exact moduleOf_ne_associations h hp he hassociations

end CrudGen.Python

namespace CrudGen.Go

open Naming

/-! ### Go

Two of the directories with files of entities have a file `errors.go` besides. No file is called
that after an entity, for its name is in the singular. With Echo and validation, the directory of
handlers also has `validator.go`, which is a name in the singular.
-/

/-- The directories of the files of entities. -/
def directories : List String :=
  ["models", "dto", "repository", "service", "handler"]

/-- The files of entities in a directory. -/
def slot : String → Slot :=
  .inDirectory "internal/" (·.names.file) ".go"

def slots : List Slot :=
  directories.map slot

/-- The sources that all entities share, with all features but validation. -/
def sharedSources (validated : Bool) : List String :=
  ["cmd/server/main", "internal/router/router", "internal/database/database",
    "internal/service/errors", "internal/handler/errors"]
  ++ (if validated then ["internal/handler/validator"] else [])
  ++ ["internal/pagination/pagination"] ++ ["internal/middleware/auth"]
  ++ ["internal/middleware/rate_limit"] ++ ["internal/cache/cache"]

def sharedPaths (validated : Bool) : List String :=
  (sharedSources validated).map (· ++ ".go")

/-- Whether handlers come with a source that checks what they are given. -/
def validated (framework : Framework) (b : Blueprint) : Bool :=
  framework == .echo && b.features.validation

/-- Besides the files of entities, a slot has `errors.go` or `validator.go` in it. -/
theorem stemsIn_sharedPaths (validated : Bool) :
    ∀ slot ∈ slots, ∀ stem ∈ slot.stemsIn (sharedPaths validated),
      stem = "errors" ∨ stem = "validator" ∧ validated = true := by
  cases validated
  all_goals
    simp only [Slot.stemsIn_eq, sharedPaths, sharedSources, List.cons_append, List.nil_append,
      List.map_cons, String.toList_append, String.reduceToList]
    decide

/-- The files of a server stand in the directories of its framework, and those for checks may be
missing. -/
theorem layout (framework : Framework) (b : Blueprint) :
    Layout b (entityFiles framework) (sharedFiles framework) slots
      (sharedPaths (validated framework b)) where
  own _ := rfl
  rest := by
    have hvalidator : ((if framework == .echo && b.features.validation then
        [sourceFile "internal/handler/validator" validatorSource] else []).map (·.1)).Sublist
          ((if validated framework b then ["internal/handler/validator"] else []).map
            (· ++ ".go")) := by
      rw [validated]
      split <;> exact .refl _
    simp only [sharedPaths, sharedSources, List.map_append]
    refine sublist_paths_append (sublist_paths_append (sublist_paths_append (sublist_paths_append
      (sublist_paths_append (.refl _) hvalidator) ?_) ?_) ?_) ?_ <;> exact sublist_paths_ite rfl
  apart := Slot.pairwise_apart_inDirectory (by simp [directories]) (by simp [directories])
  once := (show (sharedSources (validated framework b)).Nodup by
    cases validated framework b <;> simp [sharedSources]).map
      fun _ _ => (String.append_left_inj ".go").1

/-- No entity has a file called `errors`. -/
theorem file_ne_errors {b : Blueprint} (h : b.Named) (hp : b.profile.toConventions = BuiltIn.go)
    {e : Entity} (he : e ∈ b.entities) : e.names.file ≠ "errors" := by
  have hcasing : b.profile.casing .file = .snake := by
    rw [Profile.casing, hp]
    rfl
  have hplural : b.profile.plural.contains .file = false := by
    rw [hp]
    rfl
  obtain ⟨name, hfile⟩ := h.exists_file hcasing hplural he
  intro herrors
  have hends : (Casing.toSnake (singularSnake name)).toList = "erro".toList ++ ['r', 's'] := by
    rw [← hfile, herrors]
    rfl
  exact absurd (singular_ends hends (by decide)) (by decide)

/-- The paths of all files differ unless an entity's file is called `validator` and inputs are
checked. -/
theorem nodup_paths_iff {b : Blueprint} (h : b.Named) (hp : b.profile.toConventions = BuiltIn.go)
    (framework : Framework) :
    ((b.allFiles (entityFiles framework) (sharedFiles framework)).map (·.1)).Nodup ↔
      (validated framework b = true → ∀ e ∈ b.entities, e.names.file ≠ "validator") := by
  have hstems := h.pairwise_stems slots fun slot hslot e _ e' _ hsame => by
    rwa [Slot.stem_of_mem_map hslot, Slot.stem_of_mem_map hslot] at hsame
  rw [(layout framework b).nodup_iff hstems]
  -- where inputs are validated there is a shared `validator.go` among the handlers
  constructor
  · intro hfree hvalidated e he hfile
    have hpath : (slot "handler").path e = "internal/handler/validator" ++ ".go" :=
      congrArg (fun stem => "internal/" ++ "handler" ++ "/" ++ stem ++ ".go") hfile
    have hmem : sourceFile "internal/handler/validator" validatorSource ∈
        sharedFiles framework b := by
      refine List.mem_append_left _ (List.mem_append_left _ (List.mem_append_left _
        (List.mem_append_left _ (List.mem_append_right _ ?_))))
      exact (if_pos hvalidated).symm ▸ List.mem_singleton_self _
    refine hfree e he (slot "handler") (by simp [slots, directories]) ?_
    rw [hpath]
    exact List.mem_map_of_mem hmem
  · intro hfree e he slot hslot hmem
    have hstem := (layout framework b).stem_mem hmem
    rw [Slot.stem_of_mem_map hslot] at hstem
    -- of the shared names only this one can be that of an entity
    rcases stemsIn_sharedPaths _ slot hslot _ hstem with hfile | ⟨hfile, hvalidated⟩
    · exact file_ne_errors h hp he hfile
    · exact hfree hvalidated e he hfile

end CrudGen.Go
