import CrudGen.Proofs.Archive.Assembly
import CrudGen.Proofs.Target.Key
import Mathlib.Data.List.Pairwise

/-!
# Archives — the trees of several targets

Every target has a directory of its own. A framework may have a slash in its name, and then the
directory of one target stands inside that of another. Generated files meet only there.

Main results:

* `placed_eq` — where a path of one target is that of another.
* `assemble_generated_iff` — which generated files go into one archive.
-/

namespace CrudGen

/-- Two paths that go on after a slash are the same part by part, or one goes on inside the first
part of the other. -/
theorem append_slash_cases {a b p q : List Char} (h : a ++ '/' :: p = b ++ '/' :: q) :
    (a = b ∧ p = q) ∨ (∃ x, b = a ++ '/' :: x ∧ p = x ++ '/' :: q) ∨
      ∃ x, a = b ++ '/' :: x ∧ q = x ++ '/' :: p := by
  have hinside {a b p q r : List Char} (hb : b = a ++ r) (hp : '/' :: p = r ++ '/' :: q) :
      (a = b ∧ p = q) ∨ ∃ x, b = a ++ '/' :: x ∧ p = x ++ '/' :: q := by
    cases r with
    | nil => exact .inl ⟨by rw [hb, List.append_nil], (List.cons.inj hp).2⟩
    | cons c x =>
      obtain ⟨rfl, hp'⟩ := List.cons.inj hp
      exact .inr ⟨x, hb, hp'⟩
  rcases List.append_eq_append_iff.1 h with ⟨r, hb, hp⟩ | ⟨r, ha, hq⟩
  · exact (hinside hb hp).imp_right .inl
  · rcases hinside ha hq with ⟨rfl, rfl⟩ | hx
    · exact .inl ⟨rfl, rfl⟩
    · exact .inr (.inr hx)

/-- A path of one target is that of another one only inside the directory of one of them. -/
theorem placed_eq {a b : TargetKey} {p q : String} (h : Archive.placed a p = Archive.placed b q) :
    (a.directory = b.directory ∧ p = q) ∨
      (∃ x, b.directory = a.directory ++ "/" ++ x ∧ p = x ++ "/" ++ q) ∨
      ∃ x, a.directory = b.directory ++ "/" ++ x ∧ q = x ++ "/" ++ p := by
  have hlists : a.directory.toList ++ '/' :: p.toList = b.directory.toList ++ '/' :: q.toList := by
    simpa [Archive.placed] using congrArg String.toList h
  have hjoined {s t : String} {x : List Char} (h : s.toList = t.toList ++ '/' :: x) :
      s = t ++ "/" ++ String.ofList x :=
    String.toList_inj.1 (by simpa using h)
  have hfront {s t : String} {x : List Char} (h : s.toList = x ++ '/' :: t.toList) :
      s = String.ofList x ++ "/" ++ t :=
    String.toList_inj.1 (by simpa using h)
  rcases append_slash_cases hlists with ⟨ha, hp⟩ | ⟨x, hb, hp⟩ | ⟨x, ha, hq⟩
  · exact .inl ⟨String.toList_inj.1 ha, String.toList_inj.1 hp⟩
  · exact .inr (.inl ⟨_, hjoined hb, hfront hp⟩)
  · exact .inr (.inr ⟨_, hjoined ha, hfront hq⟩)

theorem placed_injective (key : TargetKey) : Function.Injective (Archive.placed key) :=
  fun _ _ h => (String.append_right_inj _).1 h

theorem paths_placements (fileSets : Dict TargetKey FileSet) :
    (placements fileSets {}).map (·.path) =
      fileSets.flatMap fun entry => entry.2.paths.map (Archive.placed entry.1) := by
  rw [placements, List.flatMap_nil, List.map_nil, List.append_nil, List.append_nil,
    List.map_flatMap]
  simp only [List.map_map, FileSet.paths, Dict.keys]
  rfl

/-- A directory without a slash stands in no other one. -/
theorem slash_mem_framework {s : String} {outer inner : TargetKey} {x : String}
    (hread : TargetKey.ofText s = .ok inner)
    (h : inner.directory = outer.directory ++ "/" ++ x) : '/' ∈ inner.framework.toList := by
  have hmem : '/' ∈ inner.directory.toList := by
    rw [h]
    simp
  rw [TargetKey.directory, String.toList_append, String.toList_append, List.mem_append,
    List.mem_append] at hmem
  rcases hmem with (hlanguage | hdash) | hframework
  · exact absurd (TargetKey.separator_free_of_ofText hread _ hlanguage) (by decide)
  · exact absurd hdash (by decide)
  · exact hframework

/-- The trees of targets stand apart: where the directory of one target is inside that of another,
they have no file at one path. -/
def TreesApart (fileSets : Dict TargetKey FileSet) : Prop :=
  ∀ outer ∈ fileSets, ∀ inner ∈ fileSets, ∀ x,
    inner.1.directory = outer.1.directory ++ "/" ++ x →
    ∀ path ∈ inner.2.paths, x ++ "/" ++ path ∉ outer.2.paths

theorem treesApart_of_nodup {fileSets : Dict TargetKey FileSet}
    (h : ((placements fileSets {}).map (·.path)).Nodup) : TreesApart fileSets := by
  rw [paths_placements, List.nodup_flatMap] at h
  intro outer houter inner hinner x hdirectory path hpath hmeet
  have hne : outer ≠ inner := by
    rintro rfl
    have hlength := congrArg (fun s => s.toList.length) hdirectory
    simp at hlength
  have hsymm : Std.Symm (Function.onFun List.Disjoint fun entry : TargetKey × FileSet =>
      entry.2.paths.map (Archive.placed entry.1)) := ⟨fun _ _ h _ hb ha => h ha hb⟩
  refine h.2.forall houter hinner hne (List.mem_map_of_mem hmeet) ?_
  have hsame : Archive.placed outer.1 (x ++ "/" ++ path) = Archive.placed inner.1 path := by
    simp only [Archive.placed, hdirectory, String.append_assoc]
  rw [hsame]
  exact List.mem_map_of_mem hpath

theorem nodup_of_treesApart {fileSets : Dict TargetKey FileSet} (hkeys : fileSets.keys.Nodup)
    (hread : ∀ key ∈ fileSets.keys, ∃ s, TargetKey.ofText s = .ok key)
    (hpaths : ∀ entry ∈ fileSets, entry.2.paths.Nodup) (h : TreesApart fileSets) :
    ((placements fileSets {}).map (·.path)).Nodup := by
  rw [paths_placements, List.nodup_flatMap]
  refine ⟨fun entry hentry => (hpaths entry hentry).map (placed_injective entry.1), ?_⟩
  have hdistinct : fileSets.Pairwise fun a b => a.1 ≠ b.1 := List.pairwise_map.1 hkeys
  refine hdistinct.imp_of_mem fun {a b} ha hb hne => ?_
  intro path hmem hmem'
  obtain ⟨p, hp, rfl⟩ := List.mem_map.1 hmem
  obtain ⟨q, hq, hmeet⟩ := List.mem_map.1 hmem'
  rcases placed_eq hmeet with ⟨hsame, -⟩ | ⟨x, hinside, rfl⟩ | ⟨x, hinside, rfl⟩
  · obtain ⟨s, hs⟩ := hread a.1 (List.mem_map_of_mem ha)
    obtain ⟨t, ht⟩ := hread b.1 (List.mem_map_of_mem hb)
    exact hne (TargetKey.directory_inj hs ht hsame.symm)
  · exact h b hb a ha x hinside p hp hq
  · exact h a ha b hb x hinside q hq hp

/-- **Trees of several targets.** The generated files of several targets go into one archive if and
only if their trees stand apart, which they always do if no framework has a slash in its name. -/
theorem assemble_generated_iff {fileSets : Dict TargetKey FileSet} (hkeys : fileSets.keys.Nodup)
    (hread : ∀ key ∈ fileSets.keys, ∃ s, TargetKey.ofText s = .ok key)
    (hpaths : ∀ entry ∈ fileSets, entry.2.paths.Nodup) :
    ((∃ a, Archive.assemble fileSets {} = .ok a) ↔ TreesApart fileSets) ∧
    ((∀ key ∈ fileSets.keys, '/' ∉ key.framework.toList) →
      ∃ a, Archive.assemble fileSets {} = .ok a) := by
  have hiff : (∃ a, Archive.assemble fileSets {} = .ok a) ↔ TreesApart fileSets := by
    rw [exists_assemble_iff]
    exact ⟨treesApart_of_nodup, nodup_of_treesApart hkeys hread hpaths⟩
  refine ⟨hiff, fun hframeworks => hiff.2 ?_⟩
  intro outer _ inner hinner x hdirectory
  obtain ⟨s, hs⟩ := hread inner.1 (List.mem_map_of_mem hinner)
  exact absurd (slash_mem_framework hs hdirectory) (hframeworks _ (List.mem_map_of_mem hinner))

/-- The directory of the second target stands inside that of the first one, with another file. -/
theorem assemble_generated_inside :
    ∃ a, Archive.assemble
      [({ language := "rust", framework := "axum" },
          { files := [("src/a.txt", ""), ("x/b.txt", "")] }),
        ({ language := "rust", framework := "axum/x" }, { files := [("a.txt", "")] })] {} =
      .ok a := by
  refine (assemble_generated_iff (by decide) ?_ (by decide)).1.2 ?_
  · intro key hkey
    simp only [Dict.keys, List.map_cons, List.map_nil, List.mem_cons, List.not_mem_nil,
      or_false] at hkey
    rcases hkey with rfl | rfl
    · exact ⟨"rust/axum", by decide +kernel⟩
    · exact ⟨"rust/axum/x", by decide +kernel⟩
  · intro outer houter inner hinner x hdirectory path hpath
    have hlists := congrArg String.toList hdirectory
    simp only [List.mem_cons, List.not_mem_nil, or_false] at houter hinner
    rcases houter with rfl | rfl <;> rcases hinner with rfl | rfl
    -- only `rust/axum/x` lies inside `rust/axum`, and by one more directory
    · simp [TargetKey.directory] at hlists
    · have hx : ['x'] = x.toList := by simpa [TargetKey.directory] using hlists
      obtain rfl : "x" = x := String.toList_inj.1 hx
      obtain rfl : path = "a.txt" := by simpa [FileSet.paths, Dict.keys] using hpath
      decide
    · simp [TargetKey.directory] at hlists
    · simp [TargetKey.directory] at hlists

/-- The same targets, with one path for both. -/
theorem trees_collide :
    TargetKey.ofText "rust/axum" = .ok { language := "rust", framework := "axum" } ∧
    TargetKey.ofText "rust/axum/x" = .ok { language := "rust", framework := "axum/x" } ∧
    Archive.assemble
      [({ language := "rust", framework := "axum" }, { files := [("x/a.txt", "")] }),
        ({ language := "rust", framework := "axum/x" }, { files := [("a.txt", "")] })] {} =
      .error { path := "rust-axum/x/a.txt", claimedBy := "rust/axum" } := by
  refine ⟨by decide +kernel, by decide +kernel, by rfl⟩

end CrudGen
