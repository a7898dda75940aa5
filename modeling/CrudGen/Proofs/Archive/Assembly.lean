import Mathlib.Data.String.Basic
import CrudGen.Archive.Basic
import CrudGen.Proofs.Data.Dict
import CrudGen.Proofs.Data.Except

/-!
# Archives — a disjoint union

The files of an archive are those of all targets and of the scaffolding, each under the path that it
claims. Files and manifest are written side by side, one entry for every file, so that they stay in
step until the manifest is sorted. If two files claim one path, there is no archive, and the first
path that is claimed again is the error.

Main results:

* `addAll_assembled` — what comes of adding files one after the other.
* `assemble_eq` — the loops over targets and scaffolding add one list of files.
* `Archive.Unites.get?` — every file of an archive is found with its content.
* `assemble_disjoint_union` — when there is an archive, what is in it, and what the error is.
-/

namespace CrudGen

/-- The files of all targets and of the scaffolding, with the paths that they claim. -/
def placements (fileSets : Dict TargetKey FileSet) (s : Scaffolding) : List Placement :=
  (fileSets.flatMap fun (key, set) => set.files.map fun (path, content) => {
    path := Archive.placed key path, content := content.toUTF8, origin := .generated
    target := some key }) ++
  (s.perTarget.flatMap fun (key, files) => files.map fun (path, content) => {
    path := Archive.placed key path, content, origin := .scaffolding, target := some key }) ++
  s.shared.map fun (path, content) => {
    path, content, origin := .scaffolding, target := none }

/-- A file of an archive under the path that it claims. -/
def Placement.file (p : Placement) : String × ArchiveFile :=
  (p.path, { content := p.content })

/-- Adds files in order. -/
def Archive.addAll (a : Archive) (ps : List Placement) : Except PathConflict Archive :=
  ps.foldlM add a

-- ---------------------------------------------------------------------------
-- File by file
-- ---------------------------------------------------------------------------

/-- Files and manifest are those of some placements, all with paths of their own. -/
structure Archive.Holds (a : Archive) (ps : List Placement) : Prop where
  sorted   : a.files.Sorted
  files    : a.files.Perm (ps.map Placement.file)
  manifest : a.manifest = ps.map Placement.entry
  nodup    : (ps.map (·.path)).Nodup

namespace Archive.Holds

variable {a : Archive} {ps : List Placement}

theorem empty : ({} : Archive).Holds [] :=
  ⟨.nil, .nil, rfl, .nil⟩

theorem mem_keys_iff (h : a.Holds ps) {path : String} :
    path ∈ a.files.keys ↔ path ∈ ps.map (·.path) := by
  have hkeys : a.files.keys.Perm (ps.map (·.path)) := by
    have hmap := h.files.map (·.1)
    rwa [List.map_map] at hmap
  exact hkeys.mem_iff

/-- A file with a new path is added. -/
theorem add_new (h : a.Holds ps) {p : Placement} (hnew : p.path ∉ ps.map (·.path)) :
    ∃ a', a.add p = .ok a' ∧ a'.Holds (ps ++ [p]) := by
  have hkey : p.path ∉ a.files.keys := mt h.mem_keys_iff.1 hnew
  refine ⟨_, if_neg (mt Dict.contains_iff.1 hkey), ?_, ?_, ?_, ?_⟩
  · exact Dict.sorted_insert h.sorted _ _
  · rw [List.map_append]
    refine (Dict.perm_insert hkey _).trans ((h.files.cons _).trans ?_)
    exact (List.perm_append_singleton _ _).symm
  · rw [List.map_append, ← h.manifest]
    rfl
  · rw [List.map_append]
    exact h.nodup.append (List.nodup_singleton _) (by simpa using hnew)

/-- A file with a path of an earlier one is the error, which names the owner of that one. -/
theorem add_again (h : a.Holds ps) {p : Placement} (hagain : p.path ∈ ps.map (·.path)) :
    ∃ before first after, ps = before ++ first :: after ∧ first.path = p.path ∧
      a.add p = .error { path := p.path, claimedBy := first.entry.owner } := by
  have hcontains : a.files.contains p.path = true := Dict.contains_iff.2 (h.mem_keys_iff.2 hagain)
  cases hfirst : ps.find? (·.path == p.path) with
  | none =>
    obtain ⟨q, hq, hpath⟩ := List.mem_map.1 hagain
    exact absurd (List.find?_eq_none.1 hfirst q hq) (by simp [hpath])
  | some first =>
    obtain ⟨hpath, before, after, hps, -⟩ := List.find?_eq_some_iff_append.1 hfirst
    have hentry : a.manifest.find? (·.path == p.path) = some first.entry := by
      rw [h.manifest, List.find?_map]
      exact congrArg (Option.map _) hfirst
    refine ⟨before, first, after, hps, by simpa using hpath, ?_⟩
    rw [add, if_pos hcontains, hentry]
    rfl

end Archive.Holds

/-- What comes of adding files one after the other: all of them are there, or the first path that is
claimed again is the error. -/
inductive Assembled (ps : List Placement) : Except PathConflict Archive → Prop
  | all {a : Archive} (h : a.Holds ps) : Assembled ps (.ok a)
  | conflict {before between after : List Placement} {first again : Placement}
      (hps : ps = before ++ first :: between ++ again :: after)
      (hnodup : ((before ++ first :: between).map (·.path)).Nodup)
      (hpath : first.path = again.path) :
      Assembled ps (.error { path := again.path, claimedBy := first.entry.owner })

theorem addAll_assembled {a : Archive} {before ps : List Placement} (h : a.Holds before) :
    Assembled (before ++ ps) (a.addAll ps) := by
  induction ps generalizing a before with
  | nil => exact .all (by rwa [List.append_nil])
  | cons p rest ih =>
    have hcons : a.addAll (p :: rest) = (a.add p).bind fun a => a.addAll rest := rfl
    by_cases hnew : p.path ∈ before.map (·.path)
    · obtain ⟨early, first, between, hbefore, hpath, herror⟩ := h.add_again hnew
      rw [hcons, herror]
      exact .conflict (by rw [hbefore]) (hbefore ▸ h.nodup) hpath
    · obtain ⟨a', hadded, hholds⟩ := h.add_new hnew
      rw [hcons, hadded, List.append_cons]
      exact ih hholds

-- ---------------------------------------------------------------------------
-- The whole tree
-- ---------------------------------------------------------------------------

/-- The loops over targets and scaffolding add one list of files. -/
theorem assemble_eq (fileSets : Dict TargetKey FileSet) (s : Scaffolding) :
    Archive.assemble fileSets s =
      (Archive.addAll {} (placements fileSets s)).map Archive.inOrder := by
  -- each of the three loops adds the placements of its own list
  have hgenerated (a : Archive) : (fileSets.foldlM (fun a (key, set) => a.addGenerated key set) a) =
        a.addAll (fileSets.flatMap fun (key, set) => set.files.map fun (path, content) => {
          path := Archive.placed key path, content := content.toUTF8, origin := .generated
          target := some key }) := by
    rw [Archive.addAll, foldlM_flatMap]
    simp only [List.foldlM_map, Archive.addGenerated]
  have hbeside (a : Archive) :
      (s.perTarget.foldlM (fun a (key, files) => a.addBeside key files) a) =
        a.addAll (s.perTarget.flatMap fun (key, files) => files.map fun (path, content) => {
          path := Archive.placed key path, content, origin := .scaffolding
          target := some key }) := by
    rw [Archive.addAll, foldlM_flatMap]
    simp only [List.foldlM_map, Archive.addBeside]
  have hshared (a : Archive) : a.addShared s.shared =
        a.addAll (s.shared.map fun (path, content) => {
          path, content, origin := .scaffolding, target := none }) := by
    rw [Archive.addAll, List.foldlM_map]
    rfl
  have hmap (x : Except PathConflict Archive) :
      (do return (← x).inOrder) = x.map Archive.inOrder := by
    cases x <;> rfl
  have happend (a : Archive) (ps qs : List Placement) :
      a.addAll (ps ++ qs) = a.addAll ps >>= fun a => a.addAll qs :=
    List.foldlM_append
  rw [placements, happend, happend]
  simp only [← hgenerated, ← hbeside, ← hshared, ← hmap, bind_assoc]
  rfl

theorem sublist_of_conflict {ps before between after : List Placement} {first again : Placement}
    (hps : ps = before ++ first :: between ++ again :: after) : [first, again].Sublist ps := by
  rw [hps, List.append_assoc, List.cons_append]
  exact .trans (.cons_cons _ (.trans (.cons_cons _ (List.nil_sublist _))
    (List.sublist_append_right between _))) (List.sublist_append_right before _)

/-- There is an archive if and only if all files claim different paths. -/
theorem exists_assemble_iff (fileSets : Dict TargetKey FileSet) (s : Scaffolding) :
    (∃ a, Archive.assemble fileSets s = .ok a) ↔
      ((placements fileSets s).map (·.path)).Nodup := by
  have hassembled : Assembled ([] ++ placements fileSets s)
    (Archive.addAll {} (placements fileSets s)) := addAll_assembled .empty
  rw [List.nil_append] at hassembled
  rw [assemble_eq]
  generalize Archive.addAll {} (placements fileSets s) = result at hassembled
  cases hassembled with
  | all hholds => exact ⟨fun _ => hholds.nodup, fun _ => ⟨_, rfl⟩⟩
  | @conflict before between after first again hps hnodup hpath =>
    refine ⟨nofun, fun hdistinct => ?_⟩
    have := hdistinct.sublist ((sublist_of_conflict hps).map _)
    simp [hpath] at this

/-- The archive has exactly the files of some placements, and one entry for each in the order of
their paths. -/
structure Archive.Unites (a : Archive) (ps : List Placement) : Prop where
  sorted    : a.files.Sorted
  files     : a.files.Perm (ps.map Placement.file)
  manifest  : a.manifest.Perm (ps.map Placement.entry)
  ascending : (a.manifest.map (·.path)).Pairwise (· < ·)
  inStep    : a.manifest.map (·.path) = a.files.keys

theorem pairwise_mergeSort_path (entries : List ManifestEntry) :
    (entries.mergeSort fun e e' => !(e'.path < e.path)).Pairwise fun e e' => e.path ≤ e'.path := by
  have hle (e e' : ManifestEntry) : (!decide (e'.path < e.path)) = true ↔ e.path ≤ e'.path := by
    rw [Bool.not_eq_true', decide_eq_false_iff_not, not_lt]
  refine (List.pairwise_mergeSort ?_ ?_ entries).imp (hle _ _).1
  · exact fun _ _ _ h h' => (hle _ _).2 (((hle _ _).1 h).trans ((hle _ _).1 h'))
  · intro e e'
    rw [Bool.or_eq_true, hle, hle]
    exact le_total _ _

theorem Archive.Holds.unites {a : Archive} {ps : List Placement} (h : a.Holds ps) :
    a.inOrder.Unites ps := by
  have hperm : a.inOrder.manifest.Perm (ps.map Placement.entry) :=
    h.manifest ▸ List.mergeSort_perm _ _
  have hnodup : (a.inOrder.manifest.map (·.path)).Nodup := by
    rw [(hperm.map _).nodup_iff, List.map_map]
    exact h.nodup
  have hsorted : (a.inOrder.manifest.map (·.path)).Pairwise (· ≤ ·) :=
    List.pairwise_map.2 (pairwise_mergeSort_path a.manifest)
  have hascending : (a.inOrder.manifest.map (·.path)).Pairwise (· < ·) :=
    hsorted.imp₂ (fun _ _ => lt_of_le_of_ne) hnodup
  refine ⟨h.sorted, h.files, hperm, hascending, ?_⟩
  have hkeys : (a.inOrder.manifest.map (·.path)).Perm a.files.keys := by
    have hmap := h.files.map (·.1)
    have hmap' := hperm.map (·.path)
    rw [List.map_map] at hmap hmap'
    exact hmap'.trans hmap.symm
  exact hkeys.eq_of_pairwise (fun _ _ _ _ hlt hgt => absurd hgt hlt.asymm) hascending
    (List.pairwise_map.2 h.sorted)

/-- What is read at a path that a file claims is the content of this file. -/
theorem Archive.Unites.get? {a : Archive} {ps : List Placement} (h : a.Unites ps) {p : Placement}
    (hp : p ∈ ps) : a.get? p.path = some p.content := by
  have hfile : a.files.get? p.path = some { content := p.content } :=
    (Dict.get?_eq_some_iff h.sorted).2 (h.files.mem_iff.2 (List.mem_map_of_mem hp))
  rw [Archive.get?, hfile]
  rfl

/-- **Assembly.** There is an archive if and only if all files claim different paths. It has every
file with its content at the path that it claims, and no other one, and its manifest has one entry
for every file, strictly ascending by path. Otherwise the error is a path that two files claim, with
the owner of the first one. -/
theorem assemble_disjoint_union (fileSets : Dict TargetKey FileSet) (s : Scaffolding) :
    let ps := placements fileSets s
    ((∃ a, Archive.assemble fileSets s = .ok a) ↔ (ps.map (·.path)).Nodup) ∧
    (∀ a, Archive.assemble fileSets s = .ok a → a.Unites ps) ∧
    ∀ c, Archive.assemble fileSets s = .error c →
      ∃ first again, [first, again].Sublist ps ∧ first.path = c.path ∧ again.path = c.path ∧
        c.claimedBy = first.entry.owner := by
  intro ps
  refine ⟨exists_assemble_iff fileSets s, ?_⟩
  rw [assemble_eq]
  have hassembled : Assembled ([] ++ ps) (Archive.addAll {} ps) := addAll_assembled .empty
  rw [List.nil_append] at hassembled
  cases hadded : Archive.addAll {} ps with
  | ok a =>
    rw [hadded] at hassembled
    cases hassembled with
    | all hholds =>
      -- no conflict, so the paths differ and every placement is there
      refine ⟨?_, nofun⟩
      rintro _ ⟨⟩
      exact hholds.unites
  | error c =>
    rw [hadded] at hassembled
    cases hassembled with
    | @conflict before between after first again hps hnodup hpath =>
      -- the second of the two placements is the one that is refused
      have hsublist := sublist_of_conflict hps
      refine ⟨nofun, ?_⟩
      rintro _ ⟨⟩
      exact ⟨first, again, hsublist, hpath, rfl, rfl⟩

end CrudGen
