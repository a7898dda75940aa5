import CrudGen.Proofs.Data.Keyed
import CrudGen.Proofs.Server.FileSet
import CrudGen.Proofs.Target.Key
import CrudGen.Server.Generation
import CrudGen.Target.BuiltIn

/-!
# Generation — targets apart from each other

A request may name many targets, some of them more than once, and any of them may fail. What comes
of one of them does not depend on the others: a request for it alone gives the same files, the same
pins and the same diagnostics about it.

Main results:

* `gives_of_run` — a run gives for each target what becomes of it, whatever else is asked for.
* `requested_of_run` — nothing is given or said for targets that were not asked for.
* `targets_isolated` — every target succeeds or fails, and does so as it does alone.
-/

namespace CrudGen

/-- The target that a diagnostic is about. -/
def Diagnostic.target? : Diagnostic → Option String
  | .unsupportedTarget u => some u.target
  | .unmappedType u => some u.target
  | .generation target _ => some target
  | .parse _ | .cycle _ | .unresolvedReference _ => none

/-- Whether a diagnostic says that nothing came of a target. -/
def Diagnostic.isFailure : Diagnostic → Bool
  | .unsupportedTarget _ | .generation .. => true
  | _ => false

namespace Generation

/-- What is said about a target, in the order in which it is said. -/
def about (gen : Generation) (key : TargetKey) : List Diagnostic :=
  gen.diagnostics.filter (·.target? == some key.text)

/-- What is said to have gone wrong for a target. -/
def failuresOf (gen : Generation) (key : TargetKey) : List Diagnostic :=
  (gen.about key).filter (·.isFailure)

/-- There are files and pins for a target, and nothing went wrong. -/
structure Succeeded (gen : Generation) (key : TargetKey) : Prop where
  files    : key ∈ gen.fileSets.keys
  pins     : key ∈ gen.pins.keys
  failures : gen.failuresOf key = []

/-- There is nothing for a target, and one thing went wrong. -/
structure Failed (gen : Generation) (key : TargetKey) : Prop where
  files    : key ∉ gen.fileSets.keys
  pins     : key ∉ gen.pins.keys
  failures : ∃ d, gen.failuresOf key = [d]

/-- Two runs give the same for a target and say the same about it. -/
structure SameFor (gen gen' : Generation) (key : TargetKey) : Prop where
  files : gen.fileSets.get? key = gen'.fileSets.get? key
  pins  : gen.pins.get? key = gen'.pins.get? key
  about : gen.about key = gen'.about key

end Generation

/-- The request for one target only. -/
def GenerationRequest.only (r : GenerationRequest) (key : TargetKey) : GenerationRequest :=
  { r with targets := [key] }

/-- The targets of a request were all read from texts. -/
def GenerationRequest.TargetsRead (r : GenerationRequest) : Prop :=
  ∀ key ∈ r.targets, ∃ text, TargetKey.ofText text = .ok key

-- ---------------------------------------------------------------------------
-- One target
-- ---------------------------------------------------------------------------

namespace TargetOutcome

/-- The files of a target. -/
def files? : TargetOutcome → Option FileSet
  | .generated files .. => some files
  | .failed _ | .unsupported _ => none

/-- The pins of a target. -/
def pins? : TargetOutcome → Option (Dict String String)
  | .generated _ pins _ => some pins
  | .failed _ | .unsupported _ => none

end TargetOutcome

/-- A run gives for a target what becomes of it, and says what is to be said of that. -/
structure Generation.Gives (gen : Generation) (key : TargetKey) (outcome : TargetOutcome) :
    Prop where
  files : gen.fileSets.get? key = outcome.files?
  pins  : gen.pins.get? key = outcome.pins?
  about : gen.about key = outcome.diagnostics key

namespace Generation.Gives

variable {gen gen' : Generation} {key : TargetKey} {outcome : TargetOutcome}

theorem succeeded_or_failed (h : gen.Gives key outcome) : gen.Succeeded key ∨ gen.Failed key := by
  have hfiles : key ∈ gen.fileSets.keys ↔ outcome.files?.isSome := by
    rw [← Dict.contains_iff, Dict.contains, h.files]
  have hpins : key ∈ gen.pins.keys ↔ outcome.pins?.isSome := by
    rw [← Dict.contains_iff, Dict.contains, h.pins]
  have hfailures : gen.failuresOf key = (outcome.diagnostics key).filter (·.isFailure) := by
    rw [failuresOf, h.about]
  cases outcome with
  | generated files pins warnings =>
    refine .inl ⟨hfiles.2 rfl, hpins.2 rfl, ?_⟩
    rw [hfailures, TargetOutcome.diagnostics, List.filter_eq_nil_iff]
    simp [Diagnostic.isFailure]
  | failed cause =>
    exact .inr ⟨mt hfiles.1 Bool.false_ne_true, mt hpins.1 Bool.false_ne_true, _, hfailures⟩
  | unsupported reason =>
    exact .inr ⟨mt hfiles.1 Bool.false_ne_true, mt hpins.1 Bool.false_ne_true, _, hfailures⟩

theorem sameFor (h : gen.Gives key outcome) (h' : gen'.Gives key outcome) : gen.SameFor gen' key :=
  ⟨h.files.trans h'.files.symm, h.pins.trans h'.pins.symm, h.about.trans h'.about.symm⟩

end Generation.Gives

variable {g : Generator} {s : Schema} {toggles : FeatureToggles} {project : String}
  {request : GenerationRequest} {gen : Generation} {key : TargetKey}

/-- Warnings are about the target whose profile they come from. -/
theorem target_of_warning {p : Profile} {e : Entity} {u : UnmappedType} (h : u ∈ e.warnings p) :
    u.target = p.key.text := by
  obtain ⟨f, -, hf⟩ := List.mem_filterMap.1 h
  rw [Field.warning?] at hf
  split at hf
  · exact Option.some.inj hf ▸ rfl
  · cases hf

/-- The profile of a target is found under its own key. -/
theorem ProfileSet.key_of_get? {profiles : ProfileSet} {p : Profile}
    (h : profiles.get? key = some p) : p.key = key := by
  rw [get?, Dict.get?, List.lookup_eq_some_iff] at h
  obtain ⟨before, after, hsplit, -⟩ := h
  exact profiles.keyed (key, p) (hsplit ▸ List.mem_append_right _ List.mem_cons_self)

/-- All that is said of what becomes of a target is about it. -/
theorem target?_of_outcome {d : Diagnostic}
    (hd : d ∈ (g.outcome s toggles project key).diagnostics key) :
    d.target? = some key.text := by
  rw [Generator.outcome] at hd
  split at hd
  · obtain rfl := List.mem_singleton.1 hd
    rfl
  · obtain rfl := List.mem_singleton.1 hd
    rfl
  · rename_i profile emitter hprofile _
    dsimp only at hd
    split at hd
    · obtain ⟨u, hu, rfl⟩ := List.mem_map.1 hd
      obtain ⟨e, -, hwarning⟩ := List.mem_flatMap.1 hu
      rw [Diagnostic.target?, target_of_warning hwarning, ProfileSet.key_of_get? hprofile]
    · obtain rfl := List.mem_singleton.1 hd
      rfl

-- ---------------------------------------------------------------------------
-- One run
-- ---------------------------------------------------------------------------

/-- What becomes of a target of a request. -/
def Generator.outcomeFor (g : Generator) (request : GenerationRequest) (key : TargetKey) :
    TargetOutcome :=
  g.outcome (.infer (Extraction.ofScript request.ddl request.dialect).catalog) request.toggles
    request.project key

/-- A run fails on account of the script only. -/
theorem exists_run_iff : (∃ gen, g.run request = .ok gen) ↔
    (Extraction.ofScript request.ddl request.dialect).catalog.tables ≠ [] := by
  rw [Generator.run, ← List.isEmpty_eq_false_iff]
  split
  · simp_all
  · simp_all

/-- What is selected of the targets that are not turned down is selected of all, as those that are
have none of it. -/
theorem filterMap_tried {α : Type} (keys : List TargetKey) (outcome : TargetKey → TargetOutcome)
    (value? : TargetOutcome → Option α) (hnone : ∀ reason, value? (.unsupported reason) = none)
    {select : TargetKey × TargetOutcome → Option (TargetKey × α)}
    (hselect : ∀ key o, select (key, o) = (value? o).map (key, ·)) :
    ((keys.map fun key => (key, outcome key)).partition (·.2.isUnsupported)).2.filterMap select =
      keys.filterMap fun key => (value? (outcome key)).map (key, ·) := by
  rw [List.partition_eq_filter_filter, List.filterMap_filter, List.filterMap_map]
  refine List.filterMap_congr fun key _ => ?_
  cases houtcome : outcome key with
  | unsupported reason => simp [houtcome, hnone, TargetOutcome.isUnsupported]
  | generated files pins warnings => simp [houtcome, hselect, TargetOutcome.isUnsupported]
  | failed cause => simp [houtcome, hselect, TargetOutcome.isUnsupported]

/-- The outcomes of the targets of a request, first those that are turned down. -/
def Generator.said (g : Generator) (request : GenerationRequest) :
    List (TargetKey × TargetOutcome) :=
  let (declined, tried) := (request.targets.eraseDups.map fun key =>
    (key, g.outcomeFor request key)).partition (·.2.isUnsupported)
  declined ++ tried

theorem perm_said : (g.said request).Perm
    (request.targets.eraseDups.map fun key => (key, g.outcomeFor request key)) := by
  rw [Generator.said, List.partition_eq_filter_filter]
  exact List.filter_append_perm _ _

theorem mem_said {entry : TargetKey × TargetOutcome} : entry ∈ g.said request ↔
    entry.1 ∈ request.targets ∧ entry.2 = g.outcomeFor request entry.1 := by
  rw [perm_said.mem_iff, List.mem_map]
  constructor
  · rintro ⟨k, hk, rfl⟩
    exact ⟨List.mem_eraseDups.1 hk, rfl⟩
  · rintro ⟨hk, houtcome⟩
    exact ⟨entry.1, List.mem_eraseDups.2 hk, by rw [← houtcome]⟩

/-- What is said about one target stands in one place among what is said about all. -/
theorem filter_said (hread : request.TargetsRead) (hkey : key ∈ request.targets) :
    ((g.said request).flatMap fun entry => entry.2.diagnostics entry.1).filter
      (·.target? == some key.text) = (g.outcomeFor request key).diagnostics key := by
  -- the texts of different targets differ, as these were read
  have hnodup : ((g.said request).map fun entry => some entry.1.text).Nodup := by
    rw [(perm_said.map _).nodup_iff, List.map_map]
    refine List.Nodup.map_on (fun k hk k' hk' htext => ?_) (nodup_eraseDups _)
    obtain ⟨_, hread₁⟩ := hread k (List.mem_eraseDups.1 hk)
    obtain ⟨_, hread₂⟩ := hread k' (List.mem_eraseDups.1 hk')
    exact TargetKey.text_inj hread₁ hread₂ (Option.some.inj htext)
  refine filter_flatMap_key hnodup (fun entry hentry d hd => ?_)
    (mem_said.2 ⟨hkey, rfl⟩ : (key, g.outcomeFor request key) ∈ g.said request)
  rw [(mem_said.1 hentry).2] at hd
  exact target?_of_outcome hd

/-- What a run gives when there are tables. -/
structure Generator.Ran (g : Generator) (request : GenerationRequest) (gen : Generation) :
    Prop where
  files : gen.fileSets = .ofList (request.targets.eraseDups.filterMap fun key =>
    (g.outcomeFor request key).files?.map (key, ·))
  pins : gen.pins = .ofList (request.targets.eraseDups.filterMap fun key =>
    (g.outcomeFor request key).pins?.map (key, ·))
  diagnostics : ∃ general, (∀ d ∈ general, d.target? = none) ∧ gen.diagnostics =
    general ++ (g.said request).flatMap fun entry => entry.2.diagnostics entry.1

theorem ran_of_run (hrun : g.run request = .ok gen) : g.Ran request gen := by
  rw [Generator.run] at hrun
  split at hrun
  · cases hrun
  · obtain rfl := Except.ok.inj hrun
    refine ⟨?_, ?_, _, ?_, rfl⟩
    · exact congrArg Dict.ofList (filterMap_tried _ (g.outcomeFor request) TargetOutcome.files?
        (fun _ => rfl) fun _ o => by cases o <;> rfl)
    · exact congrArg Dict.ofList (filterMap_tried _ (g.outcomeFor request) TargetOutcome.pins?
        (fun _ => rfl) fun _ o => by cases o <;> rfl)
    · intro d hd
      simp only [List.mem_append, List.mem_map] at hd
      rcases hd with ((⟨_, -, rfl⟩ | ⟨_, -, rfl⟩) | ⟨_, -, rfl⟩) | ⟨_, -, rfl⟩ <;> rfl

/-- A run gives for each target what becomes of it, whatever else is asked for. -/
theorem gives_of_run (hread : request.TargetsRead) (hrun : g.run request = .ok gen)
    (hkey : key ∈ request.targets) : gen.Gives key (g.outcomeFor request key) := by
  have hran := ran_of_run hrun
  have hkey' := List.mem_eraseDups.2 hkey
  obtain ⟨general, hgeneral, hdiagnostics⟩ := hran.diagnostics
  refine ⟨?_, ?_, ?_⟩
  · rw [hran.files, Dict.get?_ofList_filterMap (nodup_eraseDups _) _ hkey']
  · rw [hran.pins, Dict.get?_ofList_filterMap (nodup_eraseDups _) _ hkey']
  · have hnone : general.filter (·.target? == some key.text) = [] :=
      List.filter_eq_nil_iff.2 fun d hd => by simp [hgeneral d hd]
    rw [Generation.about, hdiagnostics, List.filter_append, hnone, List.nil_append,
      filter_said hread hkey]

/-- Nothing is given for targets that were not asked for, and nothing is said about them. -/
theorem requested_of_run (hrun : g.run request = .ok gen) :
    (∀ key ∈ gen.fileSets.keys, key ∈ request.targets) ∧
    (∀ key ∈ gen.pins.keys, key ∈ request.targets) ∧
    ∀ d ∈ gen.diagnostics, ∀ target, d.target? = some target →
      ∃ key ∈ request.targets, target = key.text := by
  have hran := ran_of_run hrun
  obtain ⟨general, hgeneral, hdiagnostics⟩ := hran.diagnostics
  have hkeys {α : Type} (value? : TargetOutcome → Option α) (key : TargetKey)
      (hkey : key ∈ (Dict.ofList (request.targets.eraseDups.filterMap fun key =>
        (value? (g.outcomeFor request key)).map (key, ·))).keys) : key ∈ request.targets := by
    rw [Dict.mem_keys_ofList, List.mem_map] at hkey
    obtain ⟨entry, hentry, rfl⟩ := hkey
    obtain ⟨k, hk, hvalue⟩ := List.mem_filterMap.1 hentry
    obtain ⟨_, -, rfl⟩ := Option.map_eq_some_iff.1 hvalue
    exact List.mem_eraseDups.1 hk
  refine ⟨fun key hkey => ?_, fun key hkey => ?_, fun d hd target htarget => ?_⟩
  · exact hkeys _ key (hran.files ▸ hkey)
  · exact hkeys _ key (hran.pins ▸ hkey)
  · rw [hdiagnostics, List.mem_append] at hd
    -- what is said in general names no target
    rcases hd with hd | hd
    · exact nomatch (hgeneral d hd).symm.trans htarget
    · obtain ⟨entry, hentry, hd⟩ := List.mem_flatMap.1 hd
      obtain ⟨hkey, houtcome⟩ := mem_said.1 hentry
      rw [houtcome] at hd
      exact ⟨entry.1, hkey, Option.some.inj (htarget.symm.trans (target?_of_outcome hd))⟩

/-- **Isolation.** Every target of a request either succeeds, with files and pins, or fails, with
one error; and a request for this target alone succeeds with the same files, the same pins and the
same diagnostics about it. What else is asked for, how often and in which order, and what comes of
that, makes no difference. -/
theorem targets_isolated (hread : request.TargetsRead) (hrun : g.run request = .ok gen) :
    ∀ key ∈ request.targets, (gen.Succeeded key ∨ gen.Failed key) ∧
      ∃ alone, g.run (request.only key) = .ok alone ∧ alone.SameFor gen key := by
  intro key hkey
  have hgives := gives_of_run hread hrun hkey
  have htables := exists_run_iff.1 ⟨gen, hrun⟩
  obtain ⟨alone, halone⟩ : ∃ alone, g.run (request.only key) = .ok alone := exists_run_iff.2 htables
  have hread' : (request.only key).TargetsRead := by
    intro k hk
    rw [List.mem_singleton.1 hk]
    exact hread key hkey
  have hgives' := gives_of_run hread' halone (List.mem_singleton_self key)
  exact ⟨hgives.succeeded_or_failed, alone, halone, hgives'.sameFor hgives⟩

/-- One target comes out beside one whose emitter breaks down and one that is not known. -/
theorem targets_isolated_beside_failures :
    let g : Generator := {
      profiles := .builtIn
      emitters := [
        (⟨"go", "gin"⟩, .ofFiles (fun _ _ => []) fun b => [("README", b.project)]),
        (⟨"rust", "axum"⟩, { Emitter.ofFiles (fun _ _ => []) fun _ => [] with
          crashes := fun _ => true })] }
    let request : GenerationRequest := {
      ddl := "CREATE TABLE posts (id INT)"
      targets := [⟨"rust", "axum"⟩, ⟨"go", "gin"⟩, ⟨"c", "c"⟩, ⟨"go", "gin"⟩]
      project := "blog" }
    request.TargetsRead ∧ ∃ gen, g.run request = .ok gen ∧ gen.Succeeded ⟨"go", "gin"⟩ ∧
      gen.Failed ⟨"rust", "axum"⟩ ∧ gen.Failed ⟨"c", "c"⟩ ∧
      ∀ key ∈ request.targets, ∃ alone, g.run (request.only key) = .ok alone ∧
        alone.SameFor gen key := by
  intro g request
  have hread : request.TargetsRead := by
    have hshown : ∀ key ∈ request.targets, TargetKey.ofText key.text = .ok key := by decide +kernel
    exact fun key hkey => ⟨key.text, hshown key hkey⟩
  have htables :
      (Extraction.ofScript request.ddl request.dialect).catalog.tables.isEmpty = false := by
    decide +kernel
  obtain ⟨gen, hrun⟩ := exists_run_iff (g := g).2 (List.isEmpty_eq_false_iff.1 htables)
  have hisolated := targets_isolated hread hrun
  have hfiles {key : TargetKey} (hkey : key ∈ request.targets) :
      key ∈ gen.fileSets.keys ↔ (g.outcomeFor request key).files?.isSome := by
    rw [← Dict.contains_iff, Dict.contains, (gives_of_run hread hrun hkey).files]
  -- `gin` has an emitter that cannot fail
  have hgin : (g.outcomeFor request ⟨"go", "gin"⟩).files?.isSome = true := by
    -- an emitter without files for an entity adds none, however many entities there are
    have hemitted (b : Blueprint) :
        b.entities.foldlM (fun s _ => Emitter.addFiles b s (.ok [])) {} = Except.ok {} := by
      induction b.entities with
      | nil => rfl
      | cons e rest ih => exact ih
    obtain ⟨p, hp⟩ : ∃ p, g.profiles.get? ⟨"go", "gin"⟩ = some p := ⟨_, rfl⟩
    have he : g.emitters.get? ⟨"go", "gin"⟩ =
        some (.ofFiles (fun _ _ => []) fun b => [("README", b.project)]) := rfl
    rw [Generator.outcomeFor, Generator.outcome, hp, he]
    simp only [Emitter.run, Emitter.ofFiles, hemitted]
    rfl
  have hfailed {key : TargetKey} (hkey : key ∈ request.targets)
      (hnone : (g.outcomeFor request key).files?.isSome = false) : gen.Failed key :=
    (hisolated key hkey).1.resolve_left fun h => by simpa [hnone] using (hfiles hkey).1 h.files
  refine ⟨hread, gen, hrun, ?_, hfailed (by decide) rfl, hfailed (by decide) rfl,
    fun key hkey => (hisolated key hkey).2⟩
  exact (hisolated _ (by decide)).1.resolve_right fun h => h.files ((hfiles (by decide)).2 hgin)

end CrudGen
