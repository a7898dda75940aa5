import Mathlib.Data.List.Nodup
import Mathlib.Data.List.Pairwise
import CrudGen.Entity.Basic
import CrudGen.Proofs.Entity.Build
import CrudGen.Proofs.Server.FileSet
import CrudGen.Text.Basic

/-!
# Generated files — slots and layouts

An emitter gives each entity one file in each of its slots: a path in which only the stem is the
entity's own. Paths in two slots differ when neither slot can take the other's paths, which is a
matter of what stands before and behind the stem. The layout of an emitter is its slots and the paths
of the files that its entities share. With the names of a schema, whether the paths of all files
differ comes down to whether the stem of an entity completes a slot to one of the shared paths.

Main results:

* `Slot.Apart.ne` — slots that are apart have no path in common.
* `nodup_slotPaths_iff` — when the paths of all files in slots differ.
* `named_ofSchema` — the entities of a schema have different names, which those of tables are.
* `Layout.nodup_iff` — when the paths of all files differ.
-/

namespace CrudGen

-- ---------------------------------------------------------------------------
-- Slots
-- ---------------------------------------------------------------------------

/-- A start is dropped if the text begins with it. -/
theorem Text.dropStart?_eq_some_iff {s start rest : String} :
    Text.dropStart? s start = some rest ↔ s = start ++ rest := by
  rw [Text.dropStart?, ← String.toList_inj, String.toList_append]
  constructor
  · split
    · rename_i hstart
      obtain ⟨tail, htail⟩ := List.isPrefixOf_iff_prefix.1 hstart
      rintro ⟨⟩
      rw [← htail, String.toList_ofList, ← String.length_toList, List.drop_left]
    · simp
  · intro hs
    rw [hs, if_pos (by simp), ← String.length_toList, List.drop_left, String.ofList_toList]

/-- A tail is dropped if the text ends in it. -/
theorem Text.dropTail?_eq_some_iff {s tail rest : String} :
    Text.dropTail? s tail = some rest ↔ s = rest ++ tail := by
  rw [Text.dropTail?, ← String.toList_inj, String.toList_append]
  have hlength (front : List Char) (hs : s.toList = front ++ tail.toList) :
      s.length - tail.length = front.length := by
    rw [← String.length_toList, hs, List.length_append, ← String.length_toList,
      Nat.add_sub_cancel]
  constructor
  · split
    · rename_i htail
      obtain ⟨front, hfront⟩ := List.isSuffixOf_iff_suffix.1 htail
      rintro ⟨⟩
      rw [hlength front hfront.symm, ← hfront, String.toList_ofList, List.take_left]
    · simp
  · intro hs
    rw [hlength _ hs, hs, if_pos (by simp), List.take_left, String.ofList_toList]

/-- A place for one file of every entity: a path with the stem of the entity in it. -/
structure Slot where
  before : String
  stem : Entity → String
  after : String

namespace Slot

/-- The path of an entity. -/
def path (slot : Slot) (e : Entity) : String :=
  slot.before ++ slot.stem e ++ slot.after

/-- The place of a file in a directory. -/
def inDirectory (root : String) (stem : Entity → String) (after directory : String) : Slot where
  before := root ++ directory ++ "/"
  stem := stem
  after := after

/-- The stem that makes a slot this path, if there is one. -/
def stemAt? (slot : Slot) (path : String) : Option String :=
  (Text.dropStart? path slot.before).bind (Text.dropTail? · slot.after)

/-- Neither of two texts begins with the other, or neither ends with it. -/
def Apart (a b : Slot) : Prop :=
  ¬ a.before.toList <+: b.before.toList ∧ ¬ b.before.toList <+: a.before.toList ∨
    ¬ a.after.toList <:+ b.after.toList ∧ ¬ b.after.toList <:+ a.after.toList

instance : DecidableRel Apart :=
  fun _ _ => inferInstanceAs (Decidable (_ ∧ _ ∨ _ ∧ _))

variable {a b slot : Slot} {e e' : Entity}

theorem Apart.symm (h : a.Apart b) : b.Apart a :=
  h.imp And.symm And.symm

/-- The stem of a slot is made in the same way in all directories. -/
theorem stem_of_mem_map {root after : String} {stem : Entity → String} {directories : List String}
    (h : slot ∈ directories.map (inDirectory root stem after)) (e : Entity) :
    slot.stem e = stem e := by
  obtain ⟨directory, -, rfl⟩ := List.mem_map.1 h
  rfl

/-- A path is what stands before the stem, the stem, and what stands behind it. -/
theorem toList_path (slot : Slot) (e : Entity) : (slot.path e).toList =
    slot.before.toList ++ (slot.stem e).toList ++ slot.after.toList := by
  rw [path, String.toList_append, String.toList_append]

/-- Slots that are apart have no path in common. -/
theorem Apart.ne (h : a.Apart b) (e e' : Entity) : a.path e ≠ b.path e' := by
  intro hsame
  have hlist := congrArg String.toList hsame
  rw [toList_path, toList_path] at hlist
  rcases h with ⟨hab, hba⟩ | ⟨hab, hba⟩
  · rw [List.append_assoc, List.append_assoc] at hlist
    have hprefix := List.prefix_append a.before.toList ((a.stem e).toList ++ a.after.toList)
    rw [hlist] at hprefix
    exact (List.prefix_or_prefix_of_prefix hprefix (List.prefix_append _ _)).elim hab hba
  · have hsuffix := List.suffix_append (a.before.toList ++ (a.stem e).toList) a.after.toList
    rw [hlist] at hsuffix
    exact (List.suffix_or_suffix_of_suffix hsuffix (List.suffix_append _ _)).elim hab hba

/-- Slots in different directories are apart. -/
theorem apart_of_directories {root d d' : String} (ha : a.before = root ++ d ++ "/")
    (hb : b.before = root ++ d' ++ "/") (hd : '/' ∉ d.toList) (hd' : '/' ∉ d'.toList)
    (hne : d ≠ d') : a.Apart b := by
  have hfree {d d' : String} (hd' : '/' ∉ d'.toList) (hne : d ≠ d') :
      ¬ (root ++ d ++ "/").toList <+: (root ++ d' ++ "/").toList := by
    rintro ⟨rest, hrest⟩
    simp only [String.toList_append, List.append_assoc, List.append_right_inj] at hrest
    -- the slash ends the first directory, so it cannot stand within the second one
    rcases List.append_eq_append_iff.1 hrest with ⟨more, hmore, htail⟩ | ⟨more, hmore, htail⟩
    · cases more with
      | nil => exact hne (String.toList_inj.1 (by simpa using hmore.symm))
      | cons c more =>
        obtain rfl : '/' = c := by simpa using congrArg List.head? htail
        exact hd' (hmore ▸ by simp)
    · cases more with
      | nil => exact hne (String.toList_inj.1 (by simpa using hmore))
      | cons c more => simp at htail
  rw [Apart, ha, hb]
  exact .inl ⟨hfree hd' hne, hfree hd hne.symm⟩

/-- Slots in different directories are apart if no directory has a slash in it. -/
theorem pairwise_apart_inDirectory {root after : String} {stem : Entity → String}
    {directories : List String} (hnodup : directories.Nodup)
    (hflat : ∀ d ∈ directories, '/' ∉ d.toList) :
    (directories.map (inDirectory root stem after)).Pairwise Apart :=
  List.pairwise_map.2 (hnodup.imp_of_mem fun hd hd' hne =>
    apart_of_directories rfl rfl (hflat _ hd) (hflat _ hd') hne)

/-- In one slot, entities of different stems have different paths. -/
theorem stem_eq_of_path (h : slot.path e = slot.path e') : slot.stem e = slot.stem e' := by
  have hlist := congrArg String.toList h
  rw [toList_path, toList_path, List.append_left_inj, List.append_right_inj] at hlist
  exact String.toList_inj.1 hlist

/-- A stem is read back from the path that it makes. -/
theorem stemAt?_eq_some_iff {path stem : String} :
    slot.stemAt? path = some stem ↔ path = slot.before ++ stem ++ slot.after := by
  simp only [stemAt?, Option.bind_eq_some_iff, Text.dropStart?_eq_some_iff,
    Text.dropTail?_eq_some_iff]
  constructor
  · rintro ⟨rest, rfl, rfl⟩
    rw [String.append_assoc]
  · rintro rfl
    exact ⟨stem ++ slot.after, String.append_assoc .., rfl⟩

/-- What would complete a slot to one of these paths. -/
def stemsIn (slot : Slot) (paths : List String) : List String :=
  paths.filterMap slot.stemAt?

/-- The characters of paths are looked through. -/
theorem stemsIn_eq (slot : Slot) (paths : List String) :
    slot.stemsIn paths = (paths.map String.toList).filterMap fun cs =>
      if slot.before.toList.isPrefixOf cs then
        let rest := cs.drop slot.before.length
        if slot.after.toList.isSuffixOf rest then
          some (String.ofList (rest.take (rest.length - slot.after.length)))
        else none
      else none := by
  rw [List.filterMap_map]
  refine List.filterMap_congr fun path _ => ?_
  rw [stemAt?, Text.dropStart?, Function.comp_apply]
  split
  · rw [Option.bind_some, Text.dropTail?, String.toList_ofList, String.length_ofList]
  · rfl

/-- The path of an entity is among others if its stem is among theirs. -/
theorem path_mem_iff {paths : List String} :
    slot.path e ∈ paths ↔ slot.stem e ∈ slot.stemsIn paths := by
  simp only [stemsIn, List.mem_filterMap, stemAt?_eq_some_iff]
  constructor
  · exact fun hmem => ⟨_, hmem, rfl⟩
  · rintro ⟨path, hmem, rfl⟩
    exact hmem

end Slot

/-- The paths of the files of some entities, and of the files that they share. -/
def slotPaths (entities : List Entity) (slots : List Slot) (shared : List String) : List String :=
  entities.flatMap (fun e => slots.map (·.path e)) ++ shared

/-- Where stems differ and slots are apart, the paths of all files differ if and only if no path of
an entity is that of a shared file. -/
theorem nodup_slotPaths_iff {entities : List Entity} {slots : List Slot} {shared : List String}
    (hstems : entities.Pairwise fun e e' => ∀ slot ∈ slots, slot.stem e ≠ slot.stem e')
    (hslots : slots.Pairwise Slot.Apart) (hshared : shared.Nodup) :
    (slotPaths entities slots shared).Nodup ↔
      ∀ e ∈ entities, ∀ slot ∈ slots, slot.path e ∉ shared := by
  have hone : ∀ e ∈ entities, (slots.map (·.path e)).Nodup := fun e _ =>
    List.pairwise_map.2 (hslots.imp fun hapart => hapart.ne e e)
  have htwo : entities.Pairwise fun e e' =>
      List.Disjoint (slots.map (·.path e)) (slots.map (·.path e')) := by
    refine hstems.imp fun {e e'} hdiffer => ?_
    rw [List.disjoint_left]
    intro path hpath hpath'
    obtain ⟨a, ha, rfl⟩ := List.mem_map.1 hpath
    obtain ⟨b, hb, hsame⟩ := List.mem_map.1 hpath'
    -- one path lies in one slot, and there the stems are the same
    have : Std.Symm Slot.Apart := ⟨fun _ _ => Slot.Apart.symm⟩
    obtain rfl : a = b := by
      by_contra hne
      exact (hslots.forall ha hb hne).ne e e' hsame.symm
    exact hdiffer a ha (Slot.stem_eq_of_path hsame.symm)
  have hentities : (entities.flatMap fun e => slots.map (·.path e)).Nodup :=
    List.nodup_flatMap.2 ⟨hone, htwo⟩
  rw [slotPaths, List.nodup_append', and_iff_right hentities, and_iff_right hshared,
    List.disjoint_left]
  simp only [List.mem_flatMap, List.mem_map, forall_exists_index, and_imp]
  constructor
  · exact fun hfree e he slot hslot => hfree e he slot hslot rfl
  · rintro hfree path e he slot hslot rfl
    exact hfree e he slot hslot

-- ---------------------------------------------------------------------------
-- Names
-- ---------------------------------------------------------------------------

/-- The names of the entities of a blueprint: they differ in every use, and each is spelled as the
profile says. -/
structure Blueprint.Named (b : Blueprint) : Prop where
  apart : b.entities.Pairwise fun e e' => e.names.Apart e'.names
  spelled : ∀ e ∈ b.entities, ∃ name,
    e.names = { EntityNames.ofTable b.profile name with table := e.names.table }

/-- The entities of a catalog are named apart, whatever profile they are named for. -/
theorem named_ofSchema {c : Catalog} (h : c.Referential) (p : Profile) (toggles : FeatureToggles)
    (project : String) : (Blueprint.ofSchema (Schema.infer c) p toggles project).Named where
  apart := pairwise_names h p
  spelled _ he := names_of_entity he

variable {b : Blueprint}

/-- With files in snake case, the file of an entity is called by a name in the singular. -/
theorem Blueprint.Named.exists_file (h : b.Named) (hcasing : b.profile.casing .file = .snake)
    (hplural : b.profile.plural.contains .file = false) {e : Entity} (he : e ∈ b.entities) :
    ∃ name, e.names.file = Casing.toSnake (Naming.singularSnake name) := by
  obtain ⟨name, hnames⟩ := h.spelled e he
  have hfile : e.names.file = b.profile.mapName name .file := congrArg EntityNames.file hnames
  have hsingle : (Role.file == .entity || Role.file == .file) = true := rfl
  refine ⟨name, hfile.trans ?_⟩
  rw [Profile.mapName, hcasing, hplural, if_pos hsingle, if_neg Bool.false_ne_true]
  rfl

/-- Entities are told apart by any stem that is made of the file names in a reversible way. -/
theorem Blueprint.Named.pairwise_stems (h : b.Named) (slots : List Slot)
    (hstem : ∀ slot ∈ slots, ∀ e ∈ b.entities, ∀ e' ∈ b.entities,
      slot.stem e = slot.stem e' → e.names.file = e'.names.file) :
    b.entities.Pairwise fun e e' => ∀ slot ∈ slots, slot.stem e ≠ slot.stem e' :=
  h.apart.imp_of_mem fun he he' hapart slot hslot hsame =>
    hapart.file (hstem slot hslot _ he _ he' hsame)

-- ---------------------------------------------------------------------------
-- Layouts
-- ---------------------------------------------------------------------------

/-- A text that is put into a path comes as it is. -/
theorem toString_text (s : String) : toString s = s :=
  rfl

/-- The paths of different modules differ. -/
theorem nodup_paths_of_modules {root after : String} {modules : List String} (h : modules.Nodup) :
    (modules.map fun module => root ++ module ++ after).Nodup :=
  h.map fun _ _ hsame => (String.append_right_inj root).1 ((String.append_left_inj after).1 hsame)

/-- Where an emitter puts its files: those of the entities in slots that are apart, the others on
some of the listed paths. -/
structure Layout (b : Blueprint) (entityFiles : Blueprint → Entity → List SourceFile)
    (sharedFiles : Blueprint → List SourceFile) (slots : List Slot) (shared : List String) :
    Prop where
  own : ∀ e, (entityFiles b e).map (·.1) = slots.map (·.path e)
  rest : ((sharedFiles b).map (·.1)).Sublist shared
  apart : slots.Pairwise Slot.Apart
  once : shared.Nodup

section

variable {files more : List SourceFile} {paths others : List String}

/-- Two parts of the shared files with their paths. -/
theorem sublist_paths_append (hfiles : (files.map (·.1)).Sublist paths)
    (hmore : (more.map (·.1)).Sublist others) :
    ((files ++ more).map (·.1)).Sublist (paths ++ others) := by
  rw [List.map_append]
  exact hfiles.append hmore

/-- A file that is there with a feature. -/
theorem sublist_paths_ite {c : Prop} [Decidable c] {file : SourceFile} {path : String}
    (hpath : file.1 = path) : ((if c then [file] else []).map (·.1)).Sublist [path] := by
  subst hpath
  split
  · exact .refl _
  · exact List.nil_sublist _

end

namespace Layout

variable {entityFiles : Blueprint → Entity → List SourceFile}
  {sharedFiles : Blueprint → List SourceFile} {slots : List Slot} {shared : List String}

/-- Where stems differ, the paths of all files differ if and only if no path of an entity is that of
a shared file. -/
theorem nodup_iff (h : Layout b entityFiles sharedFiles slots shared)
    (hstems : b.entities.Pairwise fun e e' => ∀ slot ∈ slots, slot.stem e ≠ slot.stem e') :
    ((b.allFiles entityFiles sharedFiles).map (·.1)).Nodup ↔
      ∀ e ∈ b.entities, ∀ slot ∈ slots, slot.path e ∉ (sharedFiles b).map (·.1) := by
  have hpaths : (b.allFiles entityFiles sharedFiles).map (·.1) =
      slotPaths b.entities slots ((sharedFiles b).map (·.1)) := by
    rw [Blueprint.allFiles, List.map_append, List.map_flatMap, slotPaths]
    simp only [h.own]
  rw [hpaths, nodup_slotPaths_iff hstems h.apart (h.once.sublist h.rest)]

/-- A path of an entity that is that of a shared file is made of a stem that completes the slot. -/
theorem stem_mem (h : Layout b entityFiles sharedFiles slots shared) {slot : Slot} {e : Entity}
    (hmem : slot.path e ∈ (sharedFiles b).map (·.1)) : slot.stem e ∈ slot.stemsIn shared :=
  Slot.path_mem_iff.1 (h.rest.subset hmem)

end Layout

end CrudGen
