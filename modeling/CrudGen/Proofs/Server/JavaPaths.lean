import Mathlib.Data.List.Perm.Basic
import CrudGen.Proofs.Naming.Singular
import CrudGen.Proofs.Server.Layout
import CrudGen.Server.Java.Emitter
import CrudGen.Target.BuiltIn

/-!
# Paths of classes

The files of a server in Java are classes below the package of the project. An entity with several
columns in its key, or none, has a class for identities besides, which is called as the entity is with
`Id` behind the name, and stands in one package with the entities. The package of controllers has a
class `HealthController`.

Main results:

* `Java.perm_paths` — where the files of a server are.
* `Java.nodup_paths_iff` — when their paths differ.
-/

namespace CrudGen.Java

open Naming

-- ---------------------------------------------------------------------------
-- Classes
-- ---------------------------------------------------------------------------

/-- A package with slashes for dots. -/
def directory (package : String) : String :=
  String.ofList (package.toList.map fun c => if c == '.' then '/' else c)

/-- The directory of the package of the project. -/
def root (b : Blueprint) : String :=
  "src/main/java/" ++ directory (rootPackage b) ++ "/"

/-- The packages below that of the project. -/
def packages : List String :=
  ["entity", "dto", "repository", "service", "controller", "exception", "config"]

/-- The path of a class from the package of the project. -/
def below (inPackage name : String) : String :=
  inPackage ++ "/" ++ name ++ ".java"

/-- The root is the directory of the package of the project. -/
theorem root_eq (b : Blueprint) : root b = "src/main/java/" ++ directory (rootPackage b) ++ "/" :=
  rfl

/-- The path of a class is that of its package. -/
theorem classPath_eq (b : Blueprint) (inPackage name : String) : classPath b inPackage name =
    "src/main/java/" ++ directory (package b inPackage) ++ "/" ++ name ++ ".java" :=
  rfl

/-- The directory of a package is that of each part of its name. -/
theorem directory_append (first second : String) :
    directory (first ++ second) = directory first ++ directory second := by
  simp only [directory, String.toList_append, List.map_append, String.ofList_append]

/-- The class of a package stands below the root. -/
theorem classPath_below (b : Blueprint) {inPackage : String} (h : inPackage ∈ packages)
    (name : String) : classPath b inPackage name = root b ++ below inPackage name := by
  have hplain : ∀ p ∈ packages, p.isEmpty = false ∧ directory p = p := by
    simp [packages, directory]
  obtain ⟨hne, hdirectory⟩ := hplain _ h
  have hdot : directory "." = "/" := by simp [directory]
  have hpackage : directory (package b inPackage) =
      directory (rootPackage b) ++ "/" ++ inPackage := by
    rw [package, hne, if_neg Bool.false_ne_true, directory_append, directory_append, hdot,
      hdirectory]
  rw [classPath_eq, hpackage, root_eq, below]
  simp only [String.append_assoc]

/-- The class of the application stands in the root itself. -/
theorem classPath_application (b : Blueprint) (name : String) :
    classPath b "" name = root b ++ (name ++ ".java") := by
  have hpackage : package b "" = rootPackage b := rfl
  rw [classPath_eq, hpackage, root_eq]
  simp only [String.append_assoc]

/-- Paths below the root are told apart by what stands behind it. -/
theorem root_append_injective (b : Blueprint) : Function.Injective (root b ++ ·) :=
  fun _ _ => (String.append_right_inj (root b)).1

-- ---------------------------------------------------------------------------
-- Slots
-- ---------------------------------------------------------------------------

/-- The classes of entities in a package. -/
def slot (inPackage suffix : String) : Slot where
  before := inPackage ++ "/"
  stem e := e.names.entity
  after := suffix ++ ".java"

def slots : List Slot :=
  [("entity", ""), ("dto", "Request"), ("repository", "Repository"), ("service", "Service"),
    ("controller", "Controller")].map fun (inPackage, suffix) => slot inPackage suffix

/-- The classes for identities. -/
def identitySlot : Slot :=
  slot "entity" "Id"

/-- Whether an entity has a class for identities: its rows are not told apart by one column. -/
def hasIdentity (e : Entity) : Bool :=
  e.keyFields.length != 1

/-- Every class of an entity is called as the entity is. -/
theorem stem_of_mem {s : Slot} (h : s ∈ identitySlot :: slots) (e : Entity) :
    s.stem e = e.names.entity := by
  rcases List.mem_cons.1 h with rfl | h
  · rfl
  · obtain ⟨⟨inPackage, suffix⟩, -, rfl⟩ := List.mem_map.1 h
    rfl

/-- The paths of the classes for identities, from the package of the project. -/
def identityPaths (b : Blueprint) : List String :=
  b.entities.flatMap fun e => if hasIdentity e then [identitySlot.path e] else []

/-- The paths of the classes of entities, those for identities behind the others. -/
def entityPaths (b : Blueprint) : List String :=
  slotPaths b.entities slots (identityPaths b)

/-- The paths of classes for identities. -/
theorem mem_identityPaths {b : Blueprint} {path : String} :
    path ∈ identityPaths b ↔
      ∃ e ∈ b.entities, hasIdentity e = true ∧ path = identitySlot.path e := by
  simp [identityPaths]

/-- An entity has a key of one field, or a class for its identity. -/
theorem ofEntity_cases (e : Entity) :
    hasIdentity e = false ∧ (∃ f, Identity.ofEntity e = .single f) ∨
      hasIdentity e = true ∧ ∃ fields, Identity.ofEntity e = .composite fields := by
  rw [hasIdentity, Identity.ofEntity]
  split
  · rename_i hnone
    exact .inr ⟨by rw [hnone]; rfl, _, rfl⟩
  · rename_i f hone
    exact .inl ⟨by rw [hone]; rfl, f, rfl⟩
  · rename_i hnone hone
    refine .inr ⟨?_, _, rfl⟩
    rw [bne_iff_ne, ne_eq, List.length_eq_one_iff]
    rintro ⟨f, hf⟩
    exact hone f hf

/-- The paths of the classes of an entity, as they are written. -/
theorem paths_entityFiles (b : Blueprint) (e : Entity) : (entityFiles b e).map (·.1) =
    [root b ++ (slot "entity" "").path e] ++
      (if hasIdentity e then [root b ++ identitySlot.path e] else []) ++
      [root b ++ (slot "dto" "Request").path e, root b ++ (slot "repository" "Repository").path e,
        root b ++ (slot "service" "Service").path e,
        root b ++ (slot "controller" "Controller").path e] := by
  have hclass (inPackage suffix : String) (h : inPackage ∈ packages) :
      root b ++ (slot inPackage suffix).path e =
        classPath b inPackage (e.names.entity ++ suffix) := by
    rw [classPath_below b h, below, Slot.path, slot]
    simp only [String.append_assoc]
  rw [hclass "entity" "" (by decide), String.append_empty, hclass "dto" "Request" (by decide),
    hclass "repository" "Repository" (by decide), hclass "service" "Service" (by decide),
    hclass "controller" "Controller" (by decide), identitySlot, hclass "entity" "Id" (by decide)]
  -- an identity of its own stands between the entity and the rest
  rcases ofEntity_cases e with ⟨hidentity, f, hof⟩ | ⟨hidentity, fields, hof⟩
  · rw [hidentity, if_neg Bool.false_ne_true]
    unfold entityFiles
    rw [hof]
    rfl
  · rw [hidentity, if_pos rfl]
    unfold entityFiles
    rw [hof]
    rfl

theorem perm_entityFiles (b : Blueprint) (e : Entity) : ((entityFiles b e).map (·.1)).Perm
    ((slots.map (·.path e) ++ if hasIdentity e then [identitySlot.path e] else []).map
      (root b ++ ·)) := by
  rw [paths_entityFiles, List.append_assoc, List.singleton_append, List.map_append,
    apply_ite (List.map (root b ++ ·))]
  refine List.Perm.cons _ ?_
  exact List.perm_append_comm

/-- The classes of a server, those for identities behind the others. -/
theorem perm_paths (b : Blueprint) : ((b.allFiles entityFiles sharedFiles).map (·.1)).Perm
    ((entityPaths b).map (root b ++ ·) ++ (sharedFiles b).map (·.1)) := by
  rw [Blueprint.allFiles, List.map_append, List.map_flatMap]
  refine .append_right _ ?_
  calc (b.entities.flatMap fun e => (entityFiles b e).map (·.1)).Perm _ :=
        .flatMap_left _ fun e _ => perm_entityFiles b e
    _ = _ := (List.map_flatMap ..).symm
    List.Perm _ _ := ((List.flatMap_append_perm _ _ _).symm).map _

-- ---------------------------------------------------------------------------
-- Shared files
-- ---------------------------------------------------------------------------

/-- The classes that all entities share, besides that of the application and with all features. -/
def sharedClasses : List (String × String) :=
  [("exception", "NotFoundException"), ("exception", "GlobalExceptionHandler"),
    ("controller", "HealthController"), ("dto", "OnCreate"), ("dto", "PageResponse"),
    ("config", "SecurityConfig"), ("config", "RateLimitFilter")]

def sharedPaths : List String :=
  sharedClasses.map fun (inPackage, name) => below inPackage name

def propertiesPath : String :=
  "src/main/resources/application.properties"

/-- The files that entities share are those with all features, or fewer. -/
theorem sublist_sharedFiles (b : Blueprint) : ((sharedFiles b).map (·.1)).Sublist
    ((root b ++ (applicationName b ++ ".java")) ::
      (sharedPaths.map (root b ++ ·) ++ [propertiesPath])) := by
  have hclasses : (root b ++ (applicationName b ++ ".java")) ::
      (sharedPaths.map (root b ++ ·) ++ [propertiesPath]) =
      [classPath b "" (applicationName b), classPath b "exception" "NotFoundException",
        classPath b "exception" "GlobalExceptionHandler",
        classPath b "controller" "HealthController"] ++ [classPath b "dto" "OnCreate"] ++
        [classPath b "dto" "PageResponse"] ++ [classPath b "config" "SecurityConfig"] ++
        [classPath b "config" "RateLimitFilter"] ++ [propertiesPath] := by
    rw [classPath_application, classPath_below b (by decide), classPath_below b (by decide),
      classPath_below b (by decide), classPath_below b (by decide), classPath_below b (by decide),
      classPath_below b (by decide), classPath_below b (by decide)]
    rfl
  rw [hclasses]
  refine sublist_paths_append (sublist_paths_append (sublist_paths_append (sublist_paths_append
    (sublist_paths_append (.refl _) ?_) ?_) ?_) ?_) (.refl _) <;> exact sublist_paths_ite rfl

-- ---------------------------------------------------------------------------
-- Slashes
-- ---------------------------------------------------------------------------

/-- Classes of entities stand in packages below the root. -/
theorem slash_mem_path {s : Slot} (h : s ∈ identitySlot :: slots) (e : Entity) :
    '/' ∈ (s.path e).toList := by
  have hbefore : ∀ s ∈ identitySlot :: slots, '/' ∈ s.before.toList := by
    simp [identitySlot, slots, slot]
  rw [Slot.toList_path]
  exact List.mem_append_left _ (List.mem_append_left _ (hbefore s h))

/-- The class of the application stands in no package below the root. -/
theorem slash_not_mem_application (b : Blueprint) :
    '/' ∉ (applicationName b ++ ".java").toList := by
  rw [applicationName, String.append_assoc, String.toList_append, List.mem_append, not_or]
  exact ⟨slash_not_mem_toPascal _, by decide⟩

/-- The properties stand elsewhere. -/
theorem root_append_ne_propertiesPath (b : Blueprint) (path : String) :
    root b ++ path ≠ propertiesPath := by
  intro heq
  have hlist := congrArg (List.take 14 ·.toList) heq
  simp only [root_eq, String.toList_append, List.append_assoc] at hlist
  rw [List.take_left' (by decide)] at hlist
  exact absurd hlist (by decide)

/-- A class that is not that of the application is among the files that all entities share only if
it is one of those listed. -/
theorem mem_sharedPaths {b : Blueprint} {path : String} (hslash : '/' ∈ path.toList)
    (h : root b ++ path ∈ (sharedFiles b).map (·.1)) : path ∈ sharedPaths := by
  rcases List.mem_cons.1 ((sublist_sharedFiles b).subset h) with happlication | hrest
  · have hpath := root_append_injective b happlication
    exact absurd (hpath ▸ hslash) (slash_not_mem_application b)
  · rcases List.mem_append.1 hrest with hclass | hproperties
    · exact (List.mem_map_of_injective (root_append_injective b)).1 hclass
    · exact absurd (List.mem_singleton.1 hproperties) (root_append_ne_propertiesPath b path)

/-- No two shared files have the same path. -/
theorem nodup_sharedFiles (b : Blueprint) : ((sharedFiles b).map (·.1)).Nodup := by
  have hslash : ∀ path ∈ sharedPaths, '/' ∈ path.toList :=
    List.forall_mem_map.2 fun _ _ => by simp [below]
  have honce : sharedPaths.Nodup := by decide
  refine List.Nodup.sublist (sublist_sharedFiles b) (List.nodup_cons.2 ⟨?_, ?_⟩)
  · rw [List.mem_append, List.mem_map_of_injective (root_append_injective b), List.mem_singleton]
    rintro (hclass | hproperties)
    · exact slash_not_mem_application b (hslash _ hclass)
    · exact root_append_ne_propertiesPath b _ hproperties
  · refine (honce.map (root_append_injective b)).append (List.nodup_singleton _) ?_
    rw [List.disjoint_singleton, List.mem_map]
    rintro ⟨path, -, hpath⟩
    exact root_append_ne_propertiesPath b path hpath

-- ---------------------------------------------------------------------------
-- Paths that meet
-- ---------------------------------------------------------------------------

/-- The only class that an entity and all entities share may be that of the handler of health. -/
theorem stemsIn_sharedPaths :
    ∀ slot ∈ identitySlot :: slots, ∀ stem ∈ slot.stemsIn sharedPaths, stem = "Health" := by
  simp only [Slot.stemsIn_eq, sharedPaths, sharedClasses, below, List.map_cons, List.map_nil,
    String.toList_append, String.reduceToList]
  decide

/-- No two identities have the same path. -/
theorem nodup_identityPaths {b : Blueprint} (h : b.Named) : (identityPaths b).Nodup := by
  refine List.nodup_flatMap.2 ⟨fun e _ => ?_, h.apart.imp fun {e e'} hapart => ?_⟩
  · split
    · exact List.nodup_singleton _
    · exact List.nodup_nil
  · refine List.disjoint_left.2 ?_
    simp only [List.mem_ite_nil_right, List.mem_singleton]
    rintro path ⟨-, rfl⟩ ⟨-, hsame⟩
    exact hapart.entity (Slot.stem_eq_of_path hsame)

/-- The class of an entity has the path of an identity if it is called so. -/
theorem path_entity_eq_iff {e e' : Entity} :
    (slot "entity" "").path e = identitySlot.path e' ↔
      e.names.entity = e'.names.entity ++ "Id" := by
  have hentity : (slot "entity" "").path e = "entity/" ++ e.names.entity ++ ".java" := rfl
  have hidentity : identitySlot.path e' = "entity/" ++ (e'.names.entity ++ "Id") ++ ".java" := by
    rw [identitySlot, slot, Slot.path]
    simp only [String.append_assoc]
    rfl
  rw [hentity, hidentity, String.append_left_inj, String.append_right_inj]

/-- Only the class of an entity can have the path of an identity. -/
theorem forall_not_mem_identityPaths_iff (b : Blueprint) :
    (∀ e ∈ b.entities, ∀ s ∈ slots, s.path e ∉ identityPaths b) ↔
      ∀ e ∈ b.entities, ∀ e' ∈ b.entities, hasIdentity e' = true →
        e.names.entity ≠ e'.names.entity ++ "Id" := by
  constructor
  · intro hfree e he e' he' hidentity hname
    refine hfree e he _ List.mem_cons_self (mem_identityPaths.2 ⟨e', he', hidentity, ?_⟩)
    exact path_entity_eq_iff.2 hname
  · intro hfree e he s hs hmem
    obtain ⟨e', he', hidentity, hpath⟩ := mem_identityPaths.1 hmem
    have hothers : ∀ s ∈ slots.tail, s.Apart identitySlot := by
      simp [slots, slot, identitySlot, Slot.Apart]
    rcases List.mem_cons.1 hs with rfl | hother
    · exact hfree e he e' he' hidentity (path_entity_eq_iff.1 hpath)
    · exact (hothers s hother).ne e e' hpath

/-- The path of a class comes from a slot of an entity. -/
theorem exists_slot_of_mem {b : Blueprint} {path : String} (h : path ∈ entityPaths b) :
    ∃ e ∈ b.entities, ∃ s ∈ identitySlot :: slots, path = s.path e := by
  rcases List.mem_append.1 h with hslots | hidentity
  · obtain ⟨e, he, hpath⟩ := List.mem_flatMap.1 hslots
    obtain ⟨s, hs, rfl⟩ := List.mem_map.1 hpath
    exact ⟨e, he, s, .tail _ hs, rfl⟩
  · obtain ⟨e, he, -, rfl⟩ := mem_identityPaths.1 hidentity
    exact ⟨e, he, _, .head _, rfl⟩

/-- A class of an entity stands where all entities share one if and only if it is the handler of an
entity called `Health`. -/
theorem disjoint_sharedFiles_iff (b : Blueprint) :
    ((entityPaths b).map (root b ++ ·)).Disjoint ((sharedFiles b).map (·.1)) ↔
      ∀ e ∈ b.entities, e.names.entity ≠ "Health" := by
  constructor
  · intro hdisjoint e he hname
    have hpath : (slot "controller" "Controller").path e = below "controller" "HealthController" :=
      congrArg (fun name => "controller/" ++ name ++ "Controller.java") hname
    have hmem : below "controller" "HealthController" ∈ entityPaths b := by
      refine List.mem_append_left _ (List.mem_flatMap.2 ⟨e, he, ?_⟩)
      exact hpath ▸ List.mem_map_of_mem (by simp [slots])
    refine hdisjoint (List.mem_map_of_mem hmem) ?_
    rw [← classPath_below b (by decide)]
    exact .tail _ (.tail _ (.tail _ (.head _)))
  · intro hfree path hentity hshared
    obtain ⟨_, hmem, rfl⟩ := List.mem_map.1 hentity
    obtain ⟨e, he, s, hs, rfl⟩ := exists_slot_of_mem hmem
    have hstem := Slot.path_mem_iff.1 (mem_sharedPaths (slash_mem_path hs e) hshared)
    rw [stem_of_mem hs] at hstem
    exact hfree e he (stemsIn_sharedPaths s hs _ hstem)

/-- The paths of all files differ unless an entity is called `Health` or as the identity of another
one. -/
theorem nodup_paths_iff {b : Blueprint} (h : b.Named) :
    ((b.allFiles entityFiles sharedFiles).map (·.1)).Nodup ↔
      (∀ e ∈ b.entities, e.names.entity ≠ "Health") ∧
      ∀ e ∈ b.entities, ∀ e' ∈ b.entities, hasIdentity e' = true →
        e.names.entity ≠ e'.names.entity ++ "Id" := by
  have hstems : b.entities.Pairwise fun e e' => ∀ s ∈ slots, s.stem e ≠ s.stem e' := by
    refine h.apart.imp fun {e e'} hapart s hs hsame => hapart.entity ?_
    rwa [stem_of_mem (.tail _ hs), stem_of_mem (.tail _ hs)] at hsame
  have hown : (entityPaths b).Nodup ↔ ∀ e ∈ b.entities, ∀ e' ∈ b.entities,
      hasIdentity e' = true → e.names.entity ≠ e'.names.entity ++ "Id" := by
    rw [entityPaths, nodup_slotPaths_iff hstems (by decide) (nodup_identityPaths h),
      forall_not_mem_identityPaths_iff]
  rw [(perm_paths b).nodup_iff, List.nodup_append', List.nodup_map_iff (root_append_injective b),
    hown, and_iff_right (nodup_sharedFiles b), disjoint_sharedFiles_iff, and_comm]

end CrudGen.Java
