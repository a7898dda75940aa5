import Mathlib.Data.List.Nodup
import CrudGen.Catalog.Build

/-!
# Lists of keyed elements

Two lists agree by a key when the elements of each key are the same in both, in the same order. How
the elements of one key lie among those of others does not matter then: whatever is looked up under
a key is the same, and what is made of the elements agrees again.

Main results:

* `find?_key`, `filter_key` — an element is found under its key, and no other one.
* `filter_flatMap_key` — what is made of the elements is told apart by their keys.
* `nodup_eraseDups` — nothing is left twice where copies are left out.
* `AgreeBy.perm` — lists that agree have the same elements.
* `AgreeBy.find?`, `AgreeBy.filterMap_eq` — what is found under one key is the same.
* `AgreeBy.append`, `AgreeBy.map`, `AgreeBy.flatMap`, `AgreeBy.modifyFirst` — lists keep agreeing.
-/

namespace CrudGen

/-- Where no two elements have one key, an element is found under its key. -/
theorem find?_key {α κ : Type} [BEq κ] [LawfulBEq κ] {key : α → κ} {xs : List α}
    (hnodup : (xs.map key).Nodup) {a : α} (ha : a ∈ xs) :
    xs.find? (fun b => key b == key a) = some a := by
  cases hfind : xs.find? fun b => key b == key a with
  | none => exact absurd (List.find?_eq_none.1 hfind a ha) (by simp)
  | some b =>
    have hkey : key b = key a := by simpa using List.find?_some hfind
    rw [List.inj_on_of_nodup_map hnodup (List.mem_of_find?_eq_some hfind) ha hkey]

/-- Where no two elements have one key, an element is the only one of its key. -/
theorem filter_key {α κ : Type} [BEq κ] [LawfulBEq κ] {key : α → κ} {xs : List α}
    (hnodup : (xs.map key).Nodup) {a : α} (ha : a ∈ xs) :
    xs.filter (fun b => key b == key a) = [a] := by
  obtain ⟨before, after, rfl⟩ := List.append_of_mem ha
  simp only [List.map_append, List.map_cons, List.nodup_append, List.nodup_cons, List.mem_map,
    List.mem_cons] at hnodup
  obtain ⟨-, ⟨hafter, -⟩, hbefore⟩ := hnodup
  have hnone (others : List α) (hother : ∀ b ∈ others, key b ≠ key a) :
      others.filter (fun b => key b == key a) = [] :=
    List.filter_eq_nil_iff.2 fun b hb => by simpa using hother b hb
  rw [List.filter_append, List.filter_cons_of_pos (by simp),
    hnone before fun b hb => hbefore _ ⟨b, hb, rfl⟩ _ (.inl rfl),
    hnone after fun b hb hsame => hafter ⟨b, hb, hsame⟩, List.nil_append]

/-- Of what is made of elements under their own keys, that of one key is what its element makes. -/
theorem filter_flatMap_key {α β κ : Type} [BEq κ] [LawfulBEq κ] {key : α → κ} {key' : β → κ}
    {xs : List α} (hnodup : (xs.map key).Nodup) {f : α → List β}
    (hf : ∀ a ∈ xs, ∀ b ∈ f a, key' b = key a) {a : α} (ha : a ∈ xs) :
    (xs.flatMap f).filter (fun b => key' b == key a) = f a := by
  have hown : (f a).filter (fun b => key' b == key a) = f a :=
    List.filter_eq_self.2 fun b hb => by simp [hf a ha b hb]
  -- keys differ, so nothing that is made of another element has this key
  have hother {others : List α} (hsub : ∀ b ∈ others, b ∈ xs) (hne : ∀ b ∈ others, key b ≠ key a) :
      (others.flatMap f).filter (fun b => key' b == key a) = [] := by
    refine List.filter_eq_nil_iff.2 fun c hc => ?_
    obtain ⟨b, hb, hcb⟩ := List.mem_flatMap.1 hc
    simpa [hf b (hsub b hb) c hcb] using hne b hb
  obtain ⟨before, after, rfl⟩ := List.append_of_mem ha
  rw [List.map_append, List.map_cons, List.nodup_append, List.nodup_cons] at hnodup
  obtain ⟨-, ⟨hafter, -⟩, hbefore⟩ := hnodup
  rw [List.flatMap_append, List.flatMap_cons, List.filter_append, List.filter_append, hown, hother,
    hother, List.nil_append, List.append_nil]
  · exact fun b hb => List.mem_append_right _ (List.mem_cons_of_mem _ hb)
  · exact fun b hb heq => hafter (heq ▸ List.mem_map_of_mem hb)
  · exact fun b hb => List.mem_append_left _ hb
  · exact fun b hb => hbefore _ (List.mem_map_of_mem hb) _ List.mem_cons_self

/-- Where later copies are left out, every element is there once. -/
theorem nodup_eraseDups {α : Type} [BEq α] [LawfulBEq α] (xs : List α) : xs.eraseDups.Nodup := by
  induction hlength : xs.length using Nat.strongRecOn generalizing xs with
  | _ n ih =>
    cases xs with
    | nil => exact List.nodup_nil
    | cons x rest =>
      subst hlength
      rw [List.eraseDups_cons, List.nodup_cons]
      constructor
      · rw [List.mem_eraseDups]
        simp
      · exact ih _ (Nat.lt_succ_of_le (List.length_filter_le _ _)) _ rfl

variable {α β κ : Type} [DecidableEq κ] {key : α → κ} {xs ys : List α}

/-- The elements of each key are the same in both lists, in the same order. -/
def AgreeBy (key : α → κ) (xs ys : List α) : Prop :=
  ∀ k, xs.filter (fun a => key a == k) = ys.filter fun a => key a == k

namespace AgreeBy

theorem refl (key : α → κ) (xs : List α) : AgreeBy key xs xs :=
  fun _ => rfl

/-- Lists with the same elements agree if no two elements have one key. -/
theorem of_perm (hperm : xs.Perm ys) (hnodup : (xs.map key).Nodup) : AgreeBy key xs ys := by
  intro k
  have hfilter := hperm.filter fun a => key a == k
  -- at most one element has the key, and lists of one element have no other order
  have hshort : (xs.filter fun a => key a == k).length ≤ 1 := by
    have hcount := List.nodup_iff_count_le_one.1 hnodup k
    rwa [List.count, List.countP_map, List.countP_eq_length_filter] at hcount
  generalize xs.filter (fun a => key a == k) = kept at hfilter hshort
  match kept, hshort with
  | [], _ => exact (List.nil_perm.1 hfilter).symm
  | [a], _ => exact List.singleton_perm.1 hfilter

theorem mem_iff (h : AgreeBy key xs ys) {a : α} : a ∈ xs ↔ a ∈ ys := by
  have hmem (zs : List α) : a ∈ zs ↔ a ∈ zs.filter fun b => key b == key a := by simp
  rw [hmem xs, h, ← hmem ys]

theorem perm [DecidableEq α] (h : AgreeBy key xs ys) : xs.Perm ys := by
  refine List.perm_iff_count.2 fun a => ?_
  have hcount (zs : List α) : zs.count a = (zs.filter fun b => key b == key a).count a :=
    (List.count_filter (by simp)).symm
  rw [hcount xs, h, ← hcount ys]

/-- What looks at the elements of one key only yields the same. -/
theorem filterMap_eq (h : AgreeBy key xs ys) {k : κ} {f : α → Option β}
    (hf : ∀ a, key a ≠ k → f a = none) : xs.filterMap f = ys.filterMap f := by
  have hkeep (zs : List α) :
      zs.filterMap f = (zs.filter fun a => key a == k).filterMap f := by
    rw [List.filterMap_filter]
    refine List.filterMap_congr fun a _ => ?_
    split
    · rfl
    · rename_i hne
      exact hf a (by simpa using hne)
  rw [hkeep xs, h, ← hkeep ys]

/-- What is found under one key is the same. -/
theorem find? (h : AgreeBy key xs ys) (k : κ) :
    xs.find? (fun a => key a == k) = ys.find? fun a => key a == k := by
  rw [← List.head?_filter, h, List.head?_filter]

theorem append {xs' ys' : List α} (h : AgreeBy key xs ys) (h' : AgreeBy key xs' ys') :
    AgreeBy key (xs ++ xs') (ys ++ ys') := by
  intro k
  rw [List.filter_append, List.filter_append, h, h']

theorem map {key' : β → κ} (h : AgreeBy key xs ys) {f : α → β} (hf : ∀ a, key' (f a) = key a) :
    AgreeBy key' (xs.map f) (ys.map f) := by
  intro k
  have hfilter (zs : List α) : (zs.map f).filter (fun b => key' b == k) =
      (zs.filter fun a => key a == k).map f := by
    rw [List.filter_map]
    simp only [Function.comp_def, hf]
  rw [hfilter, hfilter, h]

/-- Elements may be replaced by lists of elements of their key. -/
theorem flatMap {key' : β → κ} (h : AgreeBy key xs ys) {f : α → List β}
    (hf : ∀ a, ∀ b ∈ f a, key' b = key a) : AgreeBy key' (xs.flatMap f) (ys.flatMap f) := by
  intro k
  have hfilter (zs : List α) : (zs.flatMap f).filter (fun b => key' b == k) =
      (zs.filter fun a => key a == k).flatMap f := by
    induction zs with
    | nil => rfl
    | cons a rest ih =>
      rw [List.flatMap_cons, List.filter_append, ih, List.filter_cons]
      split
      · rename_i hkey
        rw [List.flatMap_cons, List.filter_eq_self.2 fun b hb => by rwa [hf a b hb]]
      · rename_i hkey
        rw [List.filter_eq_nil_iff.2 fun b hb => by rwa [hf a b hb], List.nil_append]
  rw [hfilter, hfilter, h]

/-- The first element of a key may change if it keeps the key. -/
theorem modifyFirst (h : AgreeBy key xs ys) {k : κ} {f : α → α}
    (hf : ∀ a, key a = k → key (f a) = k) :
    AgreeBy key (CrudGen.modifyFirst (fun a => key a == k) f xs)
      (CrudGen.modifyFirst (fun a => key a == k) f ys) := by
  intro j
  by_cases hj : j = k
  · -- among the elements of the key it is still the first
    subst hj
    have hfilter (zs : List α) :
        (CrudGen.modifyFirst (fun a => key a == j) f zs).filter (fun a => key a == j) =
          CrudGen.modifyFirst (fun a => key a == j) f (zs.filter fun a => key a == j) := by
      induction zs with
      | nil => rfl
      | cons a rest ih =>
        by_cases ha : key a = j
        · simp [CrudGen.modifyFirst, ha, hf a ha]
        · simp [CrudGen.modifyFirst, ha, ih]
    rw [hfilter, hfilter, h]
  · -- elements of other keys are left alone
    have hfilter (zs : List α) :
        (CrudGen.modifyFirst (fun a => key a == k) f zs).filter (fun a => key a == j) =
          zs.filter fun a => key a == j := by
      induction zs with
      | nil => rfl
      | cons a rest ih =>
        by_cases ha : key a = k
        · have hother : key a ≠ j := fun heq => hj (heq.symm.trans ha)
          simp [CrudGen.modifyFirst, ha, hf a ha, Ne.symm hj]
        · simp [CrudGen.modifyFirst, ha, ih, List.filter_cons]
    rw [hfilter, hfilter, h]

end AgreeBy

end CrudGen
