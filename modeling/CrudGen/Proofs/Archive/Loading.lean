import CrudGen.Archive.Scaffolding
import CrudGen.Proofs.Data.Dict
import CrudGen.Proofs.Target.Key
import CrudGen.Proofs.Text.Pieces
import Mathlib.Algebra.GroupWithZero.Nat
import Mathlib.Data.List.Dedup
import Mathlib.Data.List.Perm.Subperm

/-!
# Scaffolding — files of a directory

Every file of a directory has a place: the target that its directory is named like, or none, with a
path. A file takes the place of an earlier one. Files with different paths have different places
unless two directories spell one target.

Main results:

* `get?_add`, `get?_ofFiles` — what one file changes, and what is found after the last one.
* `place_eq_iff` — which files have one place.
* `ofFiles_keeps_files` — whether all files of a directory are kept.
-/

namespace CrudGen

namespace Scaffolding

/-- A target or none, with a path there. -/
abbrev Place := Option TargetKey × String

/-- Where a file goes. -/
def place (path : PathNames) : Place :=
  match ownTarget? path with
  | some (key, rest) => (some key, rest)
  | none => (none, path.text)

/-- The file at a place. -/
def get? (s : Scaffolding) : Place → Option ByteArray
  | (none, path) => s.shared.get? path
  | (some key, path) => (s.perTarget.get? key).bind (·.get? path)

/-- All files with their places. -/
def entries (s : Scaffolding) : List (Place × ByteArray) :=
  s.shared.map (fun (path, content) => ((none, path), content)) ++
    s.perTarget.flatMap fun (key, files) =>
      files.map fun (path, content) => ((some key, path), content)

/-- The number of shared files and of those in the directories of all targets. -/
def size (s : Scaffolding) : Nat :=
  s.shared.length + (s.perTarget.map fun (_, files) => files.length).sum

-- ---------------------------------------------------------------------------
-- File by file
-- ---------------------------------------------------------------------------

/-- All dictionaries have their keys in ascending order. -/
structure Sorted (s : Scaffolding) : Prop where
  shared    : s.shared.Sorted
  perTarget : s.perTarget.Sorted
  files     : ∀ entry ∈ s.perTarget, entry.2.Sorted

theorem Sorted.empty : Sorted {} :=
  ⟨.nil, .nil, nofun⟩

/-- The files of a target so far. -/
theorem Sorted.filesOf {s : Scaffolding} (h : s.Sorted) (key : TargetKey) :
    ((s.perTarget.get? key).getD []).Sorted := by
  cases hfiles : s.perTarget.get? key with
  | none => exact .nil
  | some files => exact h.files _ ((Dict.get?_eq_some_iff h.perTarget).1 hfiles)

/-- A file that is added is put where it belongs. -/
theorem Sorted.add {s : Scaffolding} (h : s.Sorted) (file : PathNames × ByteArray) :
    (s.add file).Sorted := by
  unfold Scaffolding.add
  split
  · rename_i key path _
    refine ⟨h.shared, Dict.sorted_insert h.perTarget _ _, fun entry hentry => ?_⟩
    rcases (Dict.mem_insert h.perTarget).1 hentry with rfl | ⟨hentry, -⟩
    · exact Dict.sorted_insert (h.filesOf key) _ _
    · exact h.files entry hentry
  · exact ⟨Dict.sorted_insert h.shared _ _, h.perTarget, h.files⟩

/-- A file comes to its place, and nothing changes elsewhere. -/
theorem get?_add {s : Scaffolding} (h : s.Sorted) (file : PathNames × ByteArray) (p : Place) :
    (s.add file).get? p = if p = place file.1 then some file.2 else s.get? p := by
  obtain ⟨target, path⟩ := p
  unfold Scaffolding.add place
  -- a file belongs to a target by its directory, or to all of them
  cases ownTarget? file.1 with
  | none =>
    cases target with
    | none => simp [get?, Dict.get?_insert h.shared]
    | some key => simp [get?]
  | some own =>
    obtain ⟨key, rest⟩ := own
    cases target with
    | none => simp [get?]
    | some key' =>
      simp only [get?, Dict.get?_insert h.perTarget, Prod.mk.injEq, Option.some.injEq]
      -- for another target nothing changes
      by_cases hkey : key' = key
      · subst hkey
        rw [if_pos rfl, Option.bind_some, Dict.get?_insert (h.filesOf key')]
        cases s.perTarget.get? key' with
        | none => simp [Dict.get?]
        | some files => simp
      · simp [hkey]

/-- The entries are what is found at their places. -/
theorem mem_entries_iff {s : Scaffolding} (h : s.Sorted) {p : Place} {content : ByteArray} :
    (p, content) ∈ s.entries ↔ s.get? p = some content := by
  obtain ⟨target, path⟩ := p
  rw [entries, List.mem_append]
  cases target with
  | none =>
    rw [get?, Dict.get?_eq_some_iff h.shared]
    simp
  | some key =>
    rw [get?, Option.bind_eq_some_iff]
    simp only [List.mem_map, List.mem_flatMap, Prod.mk.injEq, reduceCtorEq, false_and,
      and_false, Prod.exists, exists_false, false_or, Option.some.injEq]
    constructor
    · rintro ⟨_, files, hfiles, _, _, hfile, ⟨rfl, rfl⟩, rfl⟩
      exact ⟨files, (Dict.get?_eq_some_iff h.perTarget).2 hfiles,
        (Dict.get?_eq_some_iff (h.files _ hfiles)).2 hfile⟩
    · rintro ⟨files, hfiles, hfile⟩
      have hfiles := (Dict.get?_eq_some_iff h.perTarget).1 hfiles
      exact ⟨key, files, hfiles, path, content,
        (Dict.get?_eq_some_iff (h.files _ hfiles)).1 hfile, ⟨rfl, rfl⟩, rfl⟩

/-- No place has two entries. -/
theorem nodup_entries {s : Scaffolding} (h : s.Sorted) : (s.entries.map (·.1)).Nodup := by
  have hshared : (s.shared.keys.map fun path => ((none, path) : Place)).Nodup :=
    (Dict.nodup_keys h.shared).map fun _ _ heq => (Prod.mk.inj heq).2
  have hperTarget : (s.perTarget.flatMap fun entry =>
      entry.2.keys.map fun path => ((some entry.1, path) : Place)).Nodup := by
    rw [List.nodup_flatMap]
    refine ⟨fun entry hentry => (Dict.nodup_keys (h.files entry hentry)).map fun _ _ heq =>
      (Prod.mk.inj heq).2, h.perTarget.imp fun {a b} hlt p ha hb => ?_⟩
    -- places of different targets differ
    obtain ⟨_, -, rfl⟩ := List.mem_map.1 ha
    obtain ⟨_, -, hb⟩ := List.mem_map.1 hb
    exact ne_of_gt hlt (Option.some.inj (Prod.mk.inj hb).1)
  have hkeys : s.entries.map (·.1) = (s.shared.keys.map fun path => ((none, path) : Place)) ++
      s.perTarget.flatMap fun entry =>
        entry.2.keys.map fun path => ((some entry.1, path) : Place) := by
    simp only [entries, Dict.keys, List.map_append, List.map_map, List.map_flatMap]
    rfl
  rw [hkeys]
  refine hshared.append hperTarget fun p hnone hsome => ?_
  obtain ⟨_, -, rfl⟩ := List.mem_map.1 hnone
  obtain ⟨_, -, hsome⟩ := List.mem_flatMap.1 hsome
  obtain ⟨_, -, hsome⟩ := List.mem_map.1 hsome
  cases hsome

/-- There are as many entries as files. -/
theorem length_entries (s : Scaffolding) : s.entries.length = s.size := by
  simp [entries, size, List.length_flatMap]

-- ---------------------------------------------------------------------------
-- All files
-- ---------------------------------------------------------------------------

/-- The files of a directory in the order of a walk through it. -/
def inWalkOrder (files : List (PathNames × ByteArray)) : List (PathNames × ByteArray) :=
  files.mergeSort fun a b => a.1.before b.1

/-- The walk meets every file once. -/
theorem perm_inWalkOrder (files : List (PathNames × ByteArray)) :
    (inWalkOrder files).Perm files :=
  List.mergeSort_perm _ _

/-- Files that are added one after the other are sorted. -/
theorem sorted_foldl {s : Scaffolding} (h : s.Sorted) (files : List (PathNames × ByteArray)) :
    (files.foldl add s).Sorted := by
  induction files generalizing s with
  | nil => exact h
  | cons file rest ih => exact ih (h.add file)

/-- After some files, the last one that goes to a place is found there. -/
theorem get?_foldl {s : Scaffolding} (h : s.Sorted) (files : List (PathNames × ByteArray))
    (p : Place) : (files.foldl add s).get? p =
      ((files.reverse.find? fun file => place file.1 == p).map (·.2)).or (s.get? p) := by
  induction files generalizing s with
  | nil => rfl
  | cons file rest ih =>
    rw [List.foldl_cons, ih (h.add file), get?_add h, List.reverse_cons, List.find?_append]
    cases rest.reverse.find? fun file => place file.1 == p with
    | some last => rfl
    | none =>
      by_cases hp : place file.1 = p
      · simp [hp]
      · simp [hp, Ne.symm hp]

/-- What is loaded is sorted. -/
theorem sorted_ofFiles (files : List (PathNames × ByteArray)) : (ofFiles files).Sorted :=
  sorted_foldl .empty _

/-- At each place stands the file that the walk meets last. -/
theorem get?_ofFiles (files : List (PathNames × ByteArray)) (p : Place) :
    (ofFiles files).get? p =
      ((inWalkOrder files).reverse.find? fun file => place file.1 == p).map (·.2) := by
  have hempty : ({} : Scaffolding).get? p = none := by
    obtain ⟨_ | key, path⟩ := p <;> rfl
  rw [ofFiles, get?_foldl .empty, hempty, Option.or_none, inWalkOrder]

/-- The file that is found at a place is one that goes there. -/
theorem exists_of_get?_ofFiles {files : List (PathNames × ByteArray)} {p : Place}
    {content : ByteArray} (h : (ofFiles files).get? p = some content) :
    ∃ file ∈ files, (place file.1, file.2) = (p, content) := by
  rw [get?_ofFiles] at h
  obtain ⟨file, hfind, rfl⟩ := Option.map_eq_some_iff.1 h
  have hmem := List.mem_reverse.1 (List.mem_of_find?_eq_some hfind)
  have hplace : place file.1 = p := by simpa using List.find?_some hfind
  exact ⟨file, (perm_inWalkOrder files).mem_iff.1 hmem, by rw [hplace]⟩

/-- Something is found where a file goes. -/
theorem exists_get?_ofFiles {files : List (PathNames × ByteArray)} {file : PathNames × ByteArray}
    (h : file ∈ files) : ∃ content, (ofFiles files).get? (place file.1) = some content := by
  rw [get?_ofFiles]
  cases hfind : (inWalkOrder files).reverse.find? fun other => place other.1 == place file.1 with
  | some last => exact ⟨last.2, rfl⟩
  | none =>
    have hmem := List.mem_reverse.2 ((perm_inWalkOrder files).mem_iff.2 h)
    exact absurd (beq_self_eq_true _) (List.find?_eq_none.1 hfind file hmem)

/-- The places are those of the files. -/
theorem mem_places_iff (files : List (PathNames × ByteArray)) (p : Place) :
    p ∈ (ofFiles files).entries.map (·.1) ↔ p ∈ files.map fun file => place file.1 := by
  rw [List.mem_map, List.mem_map]
  constructor
  · rintro ⟨⟨_, content⟩, hentry, rfl⟩
    obtain ⟨file, hfile, heq⟩ :=
      exists_of_get?_ofFiles ((mem_entries_iff (sorted_ofFiles files)).1 hentry)
    exact ⟨file, hfile, (Prod.mk.inj heq).1⟩
  · rintro ⟨file, hfile, rfl⟩
    obtain ⟨content, hcontent⟩ := exists_get?_ofFiles hfile
    exact ⟨(place file.1, content), (mem_entries_iff (sorted_ofFiles files)).2 hcontent, rfl⟩

/-- As many files are kept as there are if and only if they have places of their own. -/
theorem size_ofFiles_eq_iff (files : List (PathNames × ByteArray)) :
    (ofFiles files).size = files.length ↔ (files.map fun file => place file.1).Nodup := by
  have hnodup := nodup_entries (sorted_ofFiles files)
  have hmem := mem_places_iff files
  rw [← length_entries]
  constructor
  · intro hlength
    have hsubperm := List.subperm_of_subset hnodup fun p hp => (hmem p).1 hp
    exact (hsubperm.perm_of_length_le (by simp [hlength])).nodup_iff.1 hnodup
  · intro hplaces
    simpa using ((List.perm_ext_iff_of_nodup hnodup hplaces).2 hmem).length_eq

/-- Every file is kept with its content if and only if they have places of their own. -/
theorem perm_entries_iff (files : List (PathNames × ByteArray)) :
    (ofFiles files).entries.Perm (files.map fun file => (place file.1, file.2)) ↔
      (files.map fun file => place file.1).Nodup := by
  have hnodup := nodup_entries (sorted_ofFiles files)
  constructor
  · intro hperm
    have hplaces := (hperm.map (·.1)).nodup_iff.1 hnodup
    rwa [List.map_map] at hplaces
  · intro hplaces
    have hfiles : (files.map fun file => (place file.1, file.2)).Nodup := by
      refine .of_map (·.1) ?_
      rwa [List.map_map]
    refine (List.perm_ext_iff_of_nodup hnodup.of_map hfiles).2 fun ⟨p, content⟩ => ?_
    rw [mem_entries_iff (sorted_ofFiles files), List.mem_map]
    constructor
    · exact exists_of_get?_ofFiles
    · rintro ⟨file, hfile, heq⟩
      obtain ⟨rfl, rfl⟩ := Prod.mk.inj heq
      -- no other file goes to this place
      obtain ⟨content, hcontent⟩ := exists_get?_ofFiles hfile
      obtain ⟨other, hother, heq⟩ := exists_of_get?_ofFiles hcontent
      obtain ⟨hplace, rfl⟩ := Prod.mk.inj heq
      rw [hcontent, List.inj_on_of_nodup_map hplaces hother hfile hplace]

-- ---------------------------------------------------------------------------
-- Places
-- ---------------------------------------------------------------------------

/-- Names that can stand in a path. -/
def Named (path : PathNames) : Prop :=
  ∀ name ∈ path, name ≠ "" ∧ '/' ∉ name.toList

/-- A file belongs to a target if it stands in a directory of it below `targets`. -/
theorem ownTarget?_eq_some_iff {path : PathNames} {key : TargetKey} {rest : String} :
    ownTarget? path = some (key, rest) ↔
      ∃ directory names, path = "targets" :: directory :: names ∧ names ≠ [] ∧
        TargetKey.ofText directory = .ok key ∧ PathNames.text names = rest := by
  constructor
  · intro h
    unfold ownTarget? at h
    split at h
    · rename_i directory name names
      split at h
      · rename_i key' hread
        obtain ⟨rfl, rfl⟩ := Prod.mk.inj (Option.some.inj h)
        exact ⟨directory, name :: names, rfl, List.cons_ne_nil _ _, hread, rfl⟩
      · cases h
    · cases h
  -- a path with fewer than three names belongs to no target
  · rintro ⟨directory, _ | ⟨name, names⟩, rfl, hne, hread, rfl⟩
    · exact absurd rfl hne
    · unfold ownTarget?
      split
      · rename_i hpath
        obtain ⟨rfl, rfl, rfl⟩ : directory = _ ∧ name = _ ∧ names = _ := by simpa using hpath
        rw [hread]
      · rename_i hnot
        exact absurd rfl (hnot directory name names)

/-- The names of a path are read back from its text. -/
theorem splitAll_text {path : PathNames} (hne : path ≠ []) (hpath : Named path) :
    Text.splitAll (fun c => c == '/') path.text.toList = path.map String.toList := by
  rw [PathNames.text, String.toList_intercalate]
  refine Text.splitAll_intercalate (by simpa using hne) fun piece hpiece => ?_
  obtain ⟨name, hname, rfl⟩ := List.mem_map.1 hpiece
  exact (hpath name hname).2

/-- The text of a path is not empty. -/
theorem text_ne_empty {path : PathNames} (hne : path ≠ []) (hpath : Named path) :
    path.text ≠ "" := by
  intro htext
  have hpieces := splitAll_text hne hpath
  rw [htext] at hpieces
  obtain ⟨name, names, rfl⟩ := List.exists_cons_of_ne_nil hne
  obtain ⟨hname, -⟩ := List.cons.inj hpieces
  exact (hpath name List.mem_cons_self).1 (String.toList_inj.1 hname.symm)

/-- Paths of names without slashes are told apart by their texts. -/
theorem text_injective {p q : PathNames} (hp : Named p) (hq : Named q) (h : p.text = q.text) :
    p = q := by
  by_cases hpne : p = []
  · by_cases hqne : q = []
    · rw [hpne, hqne]
    · exact absurd (h.symm.trans (by rw [hpne]; rfl)) (text_ne_empty hqne hq)
  · by_cases hqne : q = []
    · exact absurd (h.trans (by rw [hqne]; rfl)) (text_ne_empty hpne hp)
    · have hnames := splitAll_text hpne hp
      rw [h, splitAll_text hqne hq] at hnames
      exact (List.map_inj_right fun _ _ => String.toList_inj.1).1 hnames.symm

/-- Two files have one place only if their directories spell one target. -/
theorem place_eq_iff {p q : PathNames} (hp : Named p) (hq : Named q) :
    place p = place q ↔ p = q ∨ ∃ directory directory' names key,
      p = "targets" :: directory :: names ∧ q = "targets" :: directory' :: names ∧ names ≠ [] ∧
        TargetKey.ofText directory = .ok key ∧ TargetKey.ofText directory' = .ok key := by
  constructor
  · intro h
    unfold place at h
    split at h <;> split at h
    -- both paths lie in a directory of a target: the rest of each is its own text
    · rename_i hown _ _ _ hown'
      obtain ⟨hkey, rfl⟩ := Prod.mk.inj h
      obtain rfl := Option.some.inj hkey
      obtain ⟨directory, names, rfl, hne, hread, hrest⟩ := ownTarget?_eq_some_iff.1 hown
      obtain ⟨directory', names', rfl, -, hread', hrest'⟩ := ownTarget?_eq_some_iff.1 hown'
      obtain rfl : names = names' := by
        refine text_injective (fun name hname => hp name ?_) (fun name hname => hq name ?_)
          (hrest.trans hrest'.symm)
        · exact List.mem_cons_of_mem _ (List.mem_cons_of_mem _ hname)
        · exact List.mem_cons_of_mem _ (List.mem_cons_of_mem _ hname)
      exact .inr ⟨directory, directory', names, _, rfl, rfl, hne, hread, hread'⟩
    · cases h
    · cases h
    -- neither does, and the whole path is its own text
    · exact .inl (text_injective hp hq (Prod.mk.inj h).2)
  · rintro (rfl | ⟨directory, directory', names, key, rfl, rfl, hne, hread, hread'⟩)
    · rfl
    · rw [place, place, ownTarget?_eq_some_iff.2 ⟨directory, names, rfl, hne, hread, rfl⟩,
        ownTarget?_eq_some_iff.2 ⟨directory', names, rfl, hne, hread', rfl⟩]

/-- The files of a directory: every path leads to one of them, by names that can stand in it. -/
structure IsTree (files : List (PathNames × ByteArray)) : Prop where
  nodup : (files.map (·.1)).Nodup
  named : ∀ file ∈ files, Named file.1

/-- Two directories spell one target and have a file at one path. -/
def SpelledTwice (files : List (PathNames × ByteArray)) : Prop :=
  ∃ directory directory' names key, directory ≠ directory' ∧ names ≠ [] ∧
    "targets" :: directory :: names ∈ files.map (·.1) ∧
    "targets" :: directory' :: names ∈ files.map (·.1) ∧
    TargetKey.ofText directory = .ok key ∧ TargetKey.ofText directory' = .ok key

/-- Two files have one place only if a directory is spelled in two ways. -/
theorem nodup_places_iff {files : List (PathNames × ByteArray)} (h : IsTree files) :
    (files.map fun file => place file.1).Nodup ↔ ¬ SpelledTwice files := by
  have hnamed : ∀ path ∈ files.map (·.1), Named path := by
    rintro _ hpath
    obtain ⟨file, hfile, rfl⟩ := List.mem_map.1 hpath
    exact h.named file hfile
  have hplaces : (files.map fun file => place file.1) = (files.map (·.1)).map place := by
    rw [List.map_map]
    rfl
  -- paths differ, so places agree only where two directories are spellings of one target
  rw [hplaces, List.nodup_map_iff_inj_on h.nodup]
  constructor
  · rintro hinj ⟨directory, directory', names, key, hne, hnames, hp, hq, hread, hread'⟩
    have hsame := hinj _ hp _ hq ((place_eq_iff (hnamed _ hp) (hnamed _ hq)).2
      (.inr ⟨directory, directory', names, key, rfl, rfl, hnames, hread, hread'⟩))
    exact hne (List.cons.inj (List.cons.inj hsame).2).1
  · intro honce p hp q hq hplace
    rcases (place_eq_iff (hnamed p hp) (hnamed q hq)).1 hplace with
      heq | ⟨directory, directory', names, key, rfl, rfl, hnames, hread, hread'⟩
    · exact heq
    · by_contra hne
      refine honce ⟨directory, directory', names, key, ?_, hnames, hp, hq, hread, hread'⟩
      rintro rfl
      exact hne rfl

/-- **Loading.** At every place the file is found that comes there last in a walk through the
directory. Files are lost if and only if two directories spell one target and have a file at one
path; otherwise every file is found at its place, and there are as many as in the directory. -/
theorem ofFiles_keeps_files {files : List (PathNames × ByteArray)} (h : IsTree files) :
    (∀ p, (ofFiles files).get? p =
      ((inWalkOrder files).reverse.find? fun file => place file.1 == p).map (·.2)) ∧
    ((ofFiles files).entries.Perm (files.map fun file => (place file.1, file.2)) ↔
      ¬ SpelledTwice files) ∧
    ((ofFiles files).size = files.length ↔ ¬ SpelledTwice files) := by
  rw [perm_entries_iff, size_ofFiles_eq_iff, nodup_places_iff h]
  exact ⟨get?_ofFiles files, Iff.rfl, Iff.rfl⟩

/-- Three shared files, one of them below `targets`, and one file for each of two targets. -/
theorem ofFiles_keeps_files_of_two_targets :
    (ofFiles [(["README.md"], .empty), (["targets", "go:gin", "go.mod"], .empty),
      (["targets", "Rust-Axum", "src", "a.rs"], .empty), (["targets", "notes", "a.md"], .empty),
      (["rust-axum", "src", "a.rs"], .empty)]).size = 5 := by
  refine (ofFiles_keeps_files ⟨by decide, ?_⟩).2.2.2 ?_
  · simp [Named]
  · refine (nodup_places_iff ⟨by decide, ?_⟩).1 (by decide +kernel)
    simp [Named]

/-- Two directories that spell one target: the first file is lost. -/
theorem file_replaced : ∃ files, IsTree files ∧ files.length = 2 ∧ (ofFiles files).size = 1 := by
  refine ⟨[(["targets", "Rust-Axum", "a.txt"], .empty),
    (["targets", "rust-axum", "a.txt"], .empty)], ⟨by decide, by simp [Named]⟩, rfl, ?_⟩
  rw [ofFiles, List.mergeSort_of_pairwise (by decide)]
  decide +kernel

end Scaffolding

end CrudGen
