import Mathlib.Data.String.Basic
import CrudGen.Proofs.Data.Dict
import CrudGen.Proofs.Data.Except
import CrudGen.Server.Blueprint

/-!
# Generated files — paths that meet

A path is written once, so a target comes out if and only if the paths of all its files differ. The
error otherwise names the first path that is written again.

Main results:

* `addAll_written` — what comes of adding files one after the other.
* `run_ofFiles` — what comes of an emitter that does not fail by itself.
* `emitted_of_run` — what any emitter gives for an entity is there when it comes out.
-/

namespace CrudGen

/-- What comes of writing files one after the other: all of them are there, or the first path that
is written again is the error. -/
inductive Written (target : TargetKey) (s : FileSet) (files : List SourceFile) :
    Except GenerationError FileSet → Prop
  | all {s' : FileSet} (hnodup : (files.map (·.1)).Nodup) (hnew : ∀ f ∈ files, f.1 ∉ s.paths)
      (hsorted : s'.files.Sorted) (hpaths : ∀ path, path ∈ s'.paths ↔
        path ∈ s.paths ∨ path ∈ files.map (·.1)) : Written target s files (.ok s')
  | again {before after : List SourceFile} {file : SourceFile}
      (hfiles : files = before ++ file :: after) (hnodup : (before.map (·.1)).Nodup)
      (hnew : ∀ f ∈ before, f.1 ∉ s.paths)
      (hagain : file.1 ∈ s.paths ∨ file.1 ∈ before.map (·.1)) :
      Written target s files (.error (.duplicatePath target.text file.1))

variable {target : TargetKey} {s : FileSet} {files : List SourceFile}

theorem addAll_written (hsorted : s.files.Sorted) :
    Written target s files (s.addAll target files) := by
  induction files generalizing s with
  | nil => exact .all .nil (by simp) hsorted (by simp)
  | cons file rest ih =>
    have hcons : s.addAll target (file :: rest) =
        (s.add target file).bind fun s => s.addAll target rest := rfl
    rw [hcons, FileSet.add]
    split
    · rename_i hcontains
      have hfirst : file :: rest = [] ++ file :: rest := rfl
      exact .again hfirst .nil (by simp) (.inl (Dict.contains_iff.1 hcontains))
    · rename_i hnew
      rw [Dict.contains_iff] at hnew
      have hpaths (path : String) : path ∈ (s.files.insert file.1 file.2).keys ↔
          path = file.1 ∨ path ∈ s.paths := Dict.mem_keys_insert hsorted
      have hrest := ih (s := { files := s.files.insert file.1 file.2 })
        (Dict.sorted_insert hsorted file.1 file.2)
      -- what is new besides the file is new in any case, and goes by another path
      have hnew' {fs : List SourceFile}
          (hfs : ∀ f ∈ fs, f.1 ∉ (s.files.insert file.1 file.2).keys) :
          file.1 ∉ fs.map (·.1) ∧ ∀ f ∈ file :: fs, f.1 ∉ s.paths := by
        simp only [hpaths, not_or] at hfs
        refine ⟨?_, List.forall_mem_cons.2 ⟨hnew, fun f hf => (hfs f hf).2⟩⟩
        rw [List.mem_map]
        rintro ⟨f, hf, hsame⟩
        exact (hfs f hf).1 hsame
      rw [Except.bind]
      generalize FileSet.addAll _ target rest = result at hrest
      cases hrest with
      | all hnodup hall hsorted' hpaths' =>
        obtain ⟨hother, hnews⟩ := hnew' hall
        refine .all (List.nodup_cons.2 ⟨hother, hnodup⟩) hnews hsorted' fun path => ?_
        rw [hpaths', FileSet.paths, hpaths, List.map_cons, List.mem_cons]
        tauto
      | @again before after again hfiles hnodup hall hagain =>
        obtain ⟨hother, hnews⟩ := hnew' hall
        have hsplit : file :: rest = (file :: before) ++ again :: after := congrArg _ hfiles
        refine .again hsplit (List.nodup_cons.2 ⟨hother, hnodup⟩) hnews ?_
        rw [FileSet.paths, hpaths] at hagain
        rw [List.map_cons, List.mem_cons]
        tauto

/-- Whether all files come out is a matter of their paths alone. -/
theorem Written.isOk_iff {result : Except GenerationError FileSet}
    (h : Written target {} files result) :
    (∃ s, result = .ok s) ↔ (files.map (·.1)).Nodup := by
  cases h with
  | all hnodup => exact iff_of_true ⟨_, rfl⟩ hnodup
  | @again before after file hfiles hnodup hnew hagain =>
    refine iff_of_false (by simp) fun hall => ?_
    subst hfiles
    rw [List.map_append, List.map_cons, List.nodup_append] at hall
    rcases hagain with hthere | hbefore
    · simp [FileSet.paths, Dict.keys] at hthere
    · exact hall.2.2 _ hbefore _ List.mem_cons_self rfl

-- ---------------------------------------------------------------------------
-- Emitters
-- ---------------------------------------------------------------------------

/-- The files that an emitter writes: those of the entities in generation order, then the shared
ones. -/
def Blueprint.allFiles (b : Blueprint) (entityFiles : Blueprint → Entity → List SourceFile)
    (sharedFiles : Blueprint → List SourceFile) : List SourceFile :=
  b.entities.flatMap (entityFiles b) ++ sharedFiles b

theorem addAll_append (more : List SourceFile) :
    s.addAll target (files ++ more) = (s.addAll target files).bind fun s => s.addAll target more :=
  List.foldlM_append

/-- An emitter that does not fail by itself writes its files one after the other. -/
theorem run_ofFiles (b : Blueprint) (entityFiles : Blueprint → Entity → List SourceFile)
    (sharedFiles : Blueprint → List SourceFile) :
    Written b.profile.key {} (b.allFiles entityFiles sharedFiles)
      ((Emitter.ofFiles entityFiles sharedFiles).run b) := by
  have hrun : (Emitter.ofFiles entityFiles sharedFiles).run b =
      FileSet.addAll {} b.profile.key (b.allFiles entityFiles sharedFiles) := by
    rw [Blueprint.allFiles, addAll_append, FileSet.addAll, foldlM_flatMap]
    rfl
  rw [hrun]
  exact addAll_written .nil

-- ---------------------------------------------------------------------------
-- What is there in the end
-- ---------------------------------------------------------------------------

/-- A set of files has those of another one and some more. -/
structure FileSet.Gains (s s' : FileSet) (files : List SourceFile) : Prop where
  sorted : s'.files.Sorted
  mem_iff : ∀ f, f ∈ s'.files ↔ f ∈ files ∨ f ∈ s.files

variable {s' : FileSet} {b : Blueprint}

theorem gains_of_add (hsorted : s.files.Sorted) {file : SourceFile}
    (h : s.add target file = .ok s') : s.Gains s' [file] := by
  rw [FileSet.add] at h
  split at h
  · cases h
  · rename_i hnew
    cases h
    refine ⟨Dict.sorted_insert hsorted _ _, fun f => ?_⟩
    -- there was no file at the path that could be replaced
    have hother : f ∈ s.files → f.1 ≠ file.1 := fun hf hsame =>
      hnew (Dict.contains_iff.2 (hsame ▸ List.mem_map_of_mem hf))
    rw [Dict.mem_insert hsorted, List.mem_singleton]
    exact or_congr_right ⟨And.left, fun hf => ⟨hf, hother hf⟩⟩

theorem gains_of_addAll (hsorted : s.files.Sorted) (h : s.addAll target files = .ok s') :
    s.Gains s' files := by
  induction files generalizing s with
  | nil =>
    cases h
    exact ⟨hsorted, by simp⟩
  | cons file rest ih =>
    rw [FileSet.addAll, List.foldlM_cons] at h
    obtain ⟨s₁, hfirst, hrest⟩ := ok_of_bind h
    have hone := gains_of_add hsorted hfirst
    have hall := ih hone.sorted hrest
    refine ⟨hall.sorted, fun f => ?_⟩
    rw [hall.mem_iff, hone.mem_iff, List.mem_singleton, List.mem_cons]
    tauto

theorem gains_of_addFiles (hsorted : s.files.Sorted)
    {given : Except String (List SourceFile)} (h : Emitter.addFiles b s given = .ok s') :
    ∃ files, given = .ok files ∧ s.Gains s' files := by
  cases given with
  | error reason => cases h
  | ok files => exact ⟨files, rfl, gains_of_addAll hsorted h⟩

/-- Entity by entity, what an emitter gives is added. -/
theorem gains_of_entities {emitter : Emitter} {entities : List Entity} (hsorted : s.files.Sorted)
    (h : entities.foldlM (fun s e => Emitter.addFiles b s (emitter.entityFiles b e)) s = .ok s') :
    s'.files.Sorted ∧ (∀ f ∈ s.files, f ∈ s'.files) ∧
      ∀ e ∈ entities, ∃ files, emitter.entityFiles b e = .ok files ∧ ∀ f ∈ files, f ∈ s'.files := by
  induction entities generalizing s with
  | nil =>
    cases h
    exact ⟨hsorted, fun _ => id, by simp⟩
  | cons e rest ih =>
    rw [List.foldlM_cons] at h
    obtain ⟨s₁, hfirst, hrest⟩ := ok_of_bind h
    obtain ⟨files, hfiles, hone⟩ := gains_of_addFiles hsorted hfirst
    obtain ⟨hsorted', hkept, hall⟩ := ih hone.sorted hrest
    refine ⟨hsorted', fun f hf => hkept f ((hone.mem_iff f).2 (.inr hf)), ?_⟩
    rw [List.forall_mem_cons]
    exact ⟨⟨files, hfiles, fun f hf => hkept f ((hone.mem_iff f).2 (.inl hf))⟩, hall⟩

/-- Where an emitter comes out, all that it gives for any entity is there. -/
theorem emitted_of_run {emitter : Emitter} (h : emitter.run b = .ok s) {e : Entity}
    (he : e ∈ b.entities) :
    ∃ files, emitter.entityFiles b e = .ok files ∧ ∀ f ∈ files, f ∈ s.files := by
  rw [Emitter.run] at h
  split at h
  · cases h
  · obtain ⟨s₁, hentities, hshared⟩ := ok_of_bind h
    obtain ⟨hsorted, -, hall⟩ := gains_of_entities .nil hentities
    obtain ⟨shared, -, hmore⟩ := gains_of_addFiles hsorted hshared
    obtain ⟨files, hfiles, hthere⟩ := hall e he
    exact ⟨files, hfiles, fun f hf => (hmore.mem_iff f).2 (.inr (hthere f hf))⟩

end CrudGen
