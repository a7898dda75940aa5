import Mathlib.Data.List.Nodup
import Mathlib.Order.Lattice
import Mathlib.Tactic.Tauto
import CrudGen.Data.Dict

/-!
# Dictionaries — order and membership

`Dict.insert` keeps the keys ascending and each key once. What is looked up under a key is therefore
the value that the dictionary has it with, and `ascending` lists the elements of a list in strictly
ascending order.
-/

namespace CrudGen

namespace Dict

/-- A key is contained if it is one of the keys. -/
theorem contains_iff {κ α : Type} [BEq κ] [LawfulBEq κ] {d : Dict κ α} {key : κ} :
    d.contains key = true ↔ key ∈ d.keys := by
  rw [contains, get?, ← not_iff_not, Bool.not_eq_true, Option.isSome_eq_false_iff,
    Option.isNone_iff_eq_none, List.lookup_eq_none_iff, keys, List.mem_map]
  constructor
  · rintro hnone ⟨entry, hentry, rfl⟩
    simpa using hnone entry hentry
  · intro hnone entry hentry
    rw [bne_iff_ne]
    rintro rfl
    exact hnone ⟨entry, hentry, rfl⟩

/-- What is found is an entry. -/
theorem mem_of_get? {κ α : Type} [BEq κ] [LawfulBEq κ] {d : Dict κ α} {key : κ} {value : α}
    (h : d.get? key = some value) : (key, value) ∈ d := by
  obtain ⟨before, after, rfl, -⟩ := List.lookup_eq_some_iff.1 h
  exact List.mem_append_right before List.mem_cons_self

variable {κ α : Type} [LinearOrder κ]

-- ---------------------------------------------------------------------------
-- One insertion
-- ---------------------------------------------------------------------------

/-- The keys ascend strictly. -/
def Sorted (d : Dict κ α) : Prop :=
  d.Pairwise fun p q => p.1 < q.1

/-- An inserted pair replaces the one of its key. -/
theorem mem_insert {d : Dict κ α} (hd : d.Sorted) {key : κ} {value : α} {p : κ × α} :
    p ∈ d.insert key value ↔ p = (key, value) ∨ p ∈ d ∧ p.1 ≠ key := by
  induction d with
  | nil => simp [insert]
  | cons entry rest ih =>
    obtain ⟨k, v⟩ := entry
    obtain ⟨hhead, hrest⟩ := List.pairwise_cons.1 hd
    simp only [insert]
    split
    · -- before the head, which is above the key as all that follows it
      rename_i hlt
      have hne : ∀ q ∈ (k, v) :: rest, q.1 ≠ key := by
        intro q hq
        rcases List.mem_cons.1 hq with rfl | hq
        · exact ne_of_gt hlt
        · exact ne_of_gt (lt_trans hlt (hhead q hq))
      rw [List.mem_cons]
      exact or_congr_right ⟨fun h => ⟨h, hne p h⟩, And.left⟩
    · rename_i hnlt
      split
      -- behind the head, which is below the key
      · rename_i hgt
        rw [List.mem_cons, ih hrest, List.mem_cons]
        constructor
        · rintro (rfl | h | h)
          · exact Or.inr ⟨Or.inl rfl, ne_of_lt hgt⟩
          · exact Or.inl h
          · exact Or.inr ⟨Or.inr h.1, h.2⟩
        · rintro (h | ⟨h | h, hne⟩)
          · exact Or.inr (Or.inl h)
          · exact Or.inl h
          · exact Or.inr (Or.inr ⟨h, hne⟩)
      · -- in place of the head, the only entry of the key
        rename_i hngt
        obtain rfl : k = key := le_antisymm (not_lt.1 hnlt) (not_lt.1 hngt)
        rw [List.mem_cons, List.mem_cons]
        refine or_congr_right ⟨fun h => ⟨Or.inr h, ne_of_gt (hhead p h)⟩, ?_⟩
        rintro ⟨rfl | h, hne⟩
        · exact absurd rfl hne
        · exact h

/-- An entry that is inserted is put where it belongs. -/
theorem sorted_insert {d : Dict κ α} (hd : d.Sorted) (key : κ) (value : α) :
    Sorted (d.insert key value) := by
  induction d with
  | nil => exact List.pairwise_singleton _ _
  | cons entry rest ih =>
    obtain ⟨k, v⟩ := entry
    obtain ⟨hhead, hrest⟩ := List.pairwise_cons.1 hd
    simp only [insert]
    -- the new key comes before the first, behind it, or in its place
    split
    · rename_i hlt
      refine List.pairwise_cons.2 ⟨fun q hq => ?_, hd⟩
      rcases List.mem_cons.1 hq with rfl | hq
      · exact hlt
      · exact lt_trans hlt (hhead q hq)
    · rename_i hnlt
      split
      · rename_i hgt
        refine List.pairwise_cons.2 ⟨fun q hq => ?_, ih hrest⟩
        rcases (mem_insert hrest).1 hq with rfl | ⟨hq, _⟩
        · exact hgt
        · exact hhead q hq
      · rename_i hngt
        obtain rfl : k = key := le_antisymm (not_lt.1 hnlt) (not_lt.1 hngt)
        exact List.pairwise_cons.2 ⟨hhead, hrest⟩

/-- The keys are those that were there and the new one. -/
theorem mem_keys_insert {d : Dict κ α} (hd : d.Sorted) {key : κ} {value : α} {k : κ} :
    k ∈ keys (d.insert key value) ↔ k = key ∨ k ∈ d.keys := by
  simp only [keys, List.mem_map, mem_insert hd]
  constructor
  · rintro ⟨q, rfl | ⟨hq, _⟩, rfl⟩
    · exact Or.inl rfl
    · exact Or.inr ⟨q, hq, rfl⟩
  · rintro (rfl | ⟨q, hq, rfl⟩)
    · exact ⟨(k, value), Or.inl rfl, rfl⟩
    · by_cases hqk : q.1 = key
      · exact ⟨(key, value), Or.inl rfl, hqk.symm⟩
      · exact ⟨q, Or.inr ⟨hq, hqk⟩, rfl⟩

/-- No key stands twice. -/
theorem nodup_keys {d : Dict κ α} (hd : d.Sorted) : d.keys.Nodup :=
  List.pairwise_map.2 (hd.imp fun h => ne_of_lt h)

/-- A pair with a new key comes to the others. -/
theorem perm_insert {d : Dict κ α} {key : κ} (hnew : key ∉ d.keys) (value : α) :
    (d.insert key value).Perm ((key, value) :: d) := by
  induction d with
  | nil => exact .refl _
  | cons entry rest ih =>
    obtain ⟨k, v⟩ := entry
    rw [keys, List.map_cons, List.mem_cons, not_or] at hnew
    simp only [insert]
    split
    · exact .refl _
    · rename_i hnlt
      split
      · exact ((ih hnew.2).cons _).trans (.swap _ _ _)
      · rename_i hngt
        exact absurd (le_antisymm (not_lt.1 hngt) (not_lt.1 hnlt)) hnew.1

-- ---------------------------------------------------------------------------
-- Dictionaries made of lists
-- ---------------------------------------------------------------------------

/-- The pairs of a list one by one into a dictionary. -/
private abbrev insertAll (pairs : List (κ × α)) (d : Dict κ α) : Dict κ α :=
  pairs.foldl (fun d (k, v) => d.insert k v) d

/-- Entries are inserted in order. -/
private theorem insertAll_cons (p : κ × α) (rest : List (κ × α)) (d : Dict κ α) :
    insertAll (p :: rest) d = insertAll rest (d.insert p.1 p.2) :=
  rfl

/-- Entries that are inserted one after the other are sorted. -/
private theorem sorted_insertAll (pairs : List (κ × α)) {d : Dict κ α} (hd : d.Sorted) :
    (insertAll pairs d).Sorted := by
  induction pairs generalizing d with
  | nil => exact hd
  | cons p rest ih => exact ih (sorted_insert hd p.1 p.2)

/-- The keys are those that were there and the new ones. -/
private theorem mem_keys_insertAll {pairs : List (κ × α)} {d : Dict κ α} (hd : d.Sorted) {k : κ} :
    k ∈ (insertAll pairs d).keys ↔ k ∈ d.keys ∨ k ∈ pairs.map (·.1) := by
  induction pairs generalizing d with
  | nil => simp
  | cons p rest ih =>
    rw [insertAll_cons, ih (sorted_insert hd p.1 p.2), mem_keys_insert hd, List.map_cons,
      List.mem_cons]
    tauto

/-- Entries with new keys are added, and replace nothing. -/
private theorem mem_insertAll {pairs : List (κ × α)} {d : Dict κ α} (hd : d.Sorted)
    (hnodup : (pairs.map (·.1)).Nodup) (hfresh : ∀ q ∈ d, q.1 ∉ pairs.map (·.1)) {p : κ × α} :
    p ∈ insertAll pairs d ↔ p ∈ d ∨ p ∈ pairs := by
  induction pairs generalizing d with
  | nil => simp
  | cons q rest ih =>
    rw [List.map_cons, List.nodup_cons] at hnodup
    -- a later key is neither that of `q` nor one that was there before
    have hfresh' : ∀ r ∈ d.insert q.1 q.2, r.1 ∉ rest.map (·.1) := by
      intro r hr
      rcases (mem_insert hd).1 hr with rfl | ⟨hr, _⟩
      · exact hnodup.1
      · exact fun hmem => hfresh r hr (List.mem_cons_of_mem _ hmem)
    have hne : p ∈ d → p.1 ≠ q.1 := fun hp hpq => hfresh p hp (by simp [hpq])
    rw [insertAll_cons, ih (sorted_insert hd q.1 q.2) hnodup.2 hfresh', mem_insert hd,
      List.mem_cons]
    tauto

/-- A dictionary of a list is sorted. -/
theorem sorted_ofList (pairs : List (κ × α)) : (Dict.ofList pairs).Sorted :=
  sorted_insertAll pairs List.Pairwise.nil

/-- Its keys are those of the list. -/
theorem mem_keys_ofList {pairs : List (κ × α)} {k : κ} :
    k ∈ (Dict.ofList pairs).keys ↔ k ∈ pairs.map (·.1) := by
  rw [Dict.ofList, mem_keys_insertAll List.Pairwise.nil]
  simp [keys]

/-- Pairs with distinct keys are all kept. -/
theorem mem_ofList {pairs : List (κ × α)} (h : (pairs.map (·.1)).Nodup) {p : κ × α} :
    p ∈ Dict.ofList pairs ↔ p ∈ pairs := by
  rw [Dict.ofList, mem_insertAll List.Pairwise.nil h (by simp)]
  simp

-- ---------------------------------------------------------------------------
-- Looking up
-- ---------------------------------------------------------------------------

/-- What is found under a key is its entry. -/
theorem get?_eq_some_iff [BEq κ] [LawfulBEq κ] {d : Dict κ α} (hd : d.Sorted) {key : κ}
    {value : α} : d.get? key = some value ↔ (key, value) ∈ d := by
  induction d with
  | nil => simp [get?]
  | cons entry rest ih =>
    obtain ⟨k, v⟩ := entry
    obtain ⟨hhead, hrest⟩ := List.pairwise_cons.1 hd
    rw [get?, List.lookup_cons, List.mem_cons, Prod.mk.injEq]
    by_cases hkey : key = k
    · -- what follows has keys above that of the head
      subst hkey
      have hnot : (key, value) ∉ rest := fun hmem => lt_irrefl key (hhead _ hmem)
      simp [hnot, eq_comm]
    · rw [beq_false_of_ne hkey]
      simpa [hkey, get?] using ih hrest

/-- After an insertion the inserted value is found under its key, and what was there before under
any other. -/
theorem get?_insert [BEq κ] [LawfulBEq κ] {d : Dict κ α} (hd : d.Sorted) (key : κ) (value : α)
    (k : κ) : get? (d.insert key value) k = if k = key then some value else d.get? k := by
  refine Option.ext fun v => ?_
  rw [get?_eq_some_iff (sorted_insert hd key value), mem_insert hd]
  split
  · rename_i heq
    subst heq
    simp [eq_comm]
  · rename_i hne
    rw [get?_eq_some_iff hd]
    simp [hne]

/-- A dictionary with a value for some keys of a list has these values. -/
theorem get?_ofList_filterMap [BEq κ] [LawfulBEq κ] {keys : List κ} (hnodup : keys.Nodup)
    (value? : κ → Option α) {key : κ} (hkey : key ∈ keys) :
    (Dict.ofList (keys.filterMap fun k => (value? k).map (k, ·))).get? key = value? key := by
  have hkeys : ((keys.filterMap fun k => (value? k).map (k, ·)).map (·.1)).Nodup := by
    rw [List.map_filterMap]
    refine List.Nodup.filterMap (fun k k' j hk hk' => ?_) hnodup
    obtain ⟨_, hpair, rfl⟩ := Option.map_eq_some_iff.1 hk
    obtain ⟨_, hpair', hsame⟩ := Option.map_eq_some_iff.1 hk'
    obtain ⟨_, -, rfl⟩ := Option.map_eq_some_iff.1 hpair
    obtain ⟨_, -, rfl⟩ := Option.map_eq_some_iff.1 hpair'
    exact hsame.symm
  refine Option.ext fun value => ?_
  rw [get?_eq_some_iff (sorted_ofList _), mem_ofList hkeys, List.mem_filterMap]
  constructor
  · rintro ⟨k, -, hk⟩
    obtain ⟨v, hv, hpair⟩ := Option.map_eq_some_iff.1 hk
    obtain ⟨rfl, rfl⟩ := Prod.mk.inj hpair
    exact hv
  · exact fun hv => ⟨key, hkey, by rw [hv]; rfl⟩

end Dict

variable {κ : Type} [LinearOrder κ]

-- ---------------------------------------------------------------------------
-- Lists in ascending order
-- ---------------------------------------------------------------------------

/-- Sorting by keys loses nothing. -/
theorem mem_ascending {xs : List κ} {x : κ} : x ∈ ascending xs ↔ x ∈ xs := by
  rw [ascending, Dict.mem_keys_ofList]
  simp

/-- Keys stand in strictly ascending order. -/
theorem pairwise_ascending (xs : List κ) : (ascending xs).Pairwise (· < ·) :=
  List.pairwise_map.2 (Dict.sorted_ofList _)

end CrudGen
