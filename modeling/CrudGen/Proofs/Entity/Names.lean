import Mathlib.Data.List.Pairwise
import CrudGen.Entity.Basic
import CrudGen.Proofs.Catalog.Referential
import CrudGen.Proofs.Naming.Numbered
import CrudGen.Proofs.Schema.Kinds

/-!
# Entities — names that differ

A table whose plain names clash with those of an entity before it gets names with a number. The
numbers are tried one after the other, and nothing bounds them but that the search ends: `Search` is
that search. It does end, since different numbers give different names for every use
(`Numbered.mapName_injective`), so that a name which is taken stands in the way of one number only.

Main result:

* `assigned_names_apart` — every entity of a schema is named, and the names of any two of them
  differ in every use.
-/

namespace CrudGen

open Naming
open Sql (Dialect)

-- ---------------------------------------------------------------------------
-- A number that nothing stands in the way of
-- ---------------------------------------------------------------------------

/-- Where each claim is met by one number at most, one number more than there are claims is enough
to find one that meets none. -/
theorem exists_unclaimed {claims : List (Nat → Prop)}
    (hclaims : ∀ claim ∈ claims, ∀ m n, claim m → claim n → m = n) {numbers : List Nat}
    (hnodup : numbers.Nodup) (hlength : claims.length < numbers.length) :
    ∃ n ∈ numbers, ∀ claim ∈ claims, ¬ claim n := by
  induction claims generalizing numbers with
  | nil =>
    obtain ⟨n, hn⟩ := List.exists_mem_of_length_pos hlength
    exact ⟨n, hn, by simp⟩
  | cons claim rest ih =>
    rw [List.forall_mem_cons] at hclaims
    rw [List.length_cons] at hlength
    by_cases hmet : ∃ m ∈ numbers, claim m
    · -- without the number that meets the first claim there are enough for the others
      obtain ⟨m, hm, hclaim⟩ := hmet
      have hshorter : rest.length < (numbers.erase m).length := by
        rw [List.length_erase_of_mem hm]
        omega
      obtain ⟨n, hn, hfree⟩ := ih hclaims.2 (hnodup.erase m) hshorter
      rw [hnodup.mem_erase_iff] at hn
      exact ⟨n, hn.2, List.forall_mem_cons.2
        ⟨fun hclaim' => hn.1 (hclaims.1 n m hclaim' hclaim), hfree⟩⟩
    · push Not at hmet
      obtain ⟨n, hn, hfree⟩ := ih hclaims.2 hnodup (by omega)
      exact ⟨n, hn, List.forall_mem_cons.2 ⟨hmet n hn, hfree⟩⟩

-- ---------------------------------------------------------------------------
-- Names that differ
-- ---------------------------------------------------------------------------

namespace EntityNames

/-- Names that differ in every use. What the database calls the tables does not count. -/
structure Apart (a b : EntityNames) : Prop where
  entity     : a.entity ≠ b.entity
  file       : a.file ≠ b.file
  route      : a.route ≠ b.route
  constant   : a.constant ≠ b.constant
  single     : a.single ≠ b.single
  collection : a.collection ≠ b.collection

variable {a b : EntityNames} {p : Profile} {taken : List EntityNames} {table : String}

theorem Apart.symm (h : a.Apart b) : b.Apart a :=
  ⟨h.entity.symm, h.file.symm, h.route.symm, h.constant.symm, h.single.symm, h.collection.symm⟩

theorem clashes_eq_false_iff : a.clashes b = false ↔ a.Apart b := by
  simp only [clashes, Bool.or_eq_false_iff, beq_eq_false_iff_ne]
  constructor
  · rintro ⟨⟨⟨⟨⟨h₁, h₂⟩, h₃⟩, h₄⟩, h₅⟩, h₆⟩
    exact ⟨h₁, h₂, h₃, h₄, h₅, h₆⟩
  · rintro ⟨h₁, h₂, h₃, h₄, h₅, h₆⟩
    exact ⟨⟨⟨⟨⟨h₁, h₂⟩, h₃⟩, h₄⟩, h₅⟩, h₆⟩

theorem any_clashes_eq_false_iff :
    taken.any a.clashes = false ↔ ∀ b ∈ taken, a.Apart b := by
  simp [List.any_eq_false, clashes_eq_false_iff]

/-- What an entity that is named stands in the way of: by each of its names, of a number. -/
def claims (p : Profile) (table : String) (b : EntityNames) : List (Nat → Prop) :=
  [fun n => (numbered p table n).entity = b.entity,
    fun n => (numbered p table n).file = b.file,
    fun n => (numbered p table n).route = b.route,
    fun n => (numbered p table n).constant = b.constant,
    fun n => (numbered p table n).single = b.single,
    fun n => (numbered p table n).collection = b.collection]

theorem claim_unique {claim : Nat → Prop} (h : claim ∈ claims p table b) (m n : Nat)
    (hm : claim m) (hn : claim n) : m = n := by
  have hname : Numbered fun n => Casing.toSnake table ++ "_" ++ toString n := .behind _
  have hunique {role : Role} {g : Nat → String} (hg : Numbered g) {taken : String}
      (hm : p.mapName (g m) role = taken) (hn : p.mapName (g n) role = taken) : m = n :=
    hg.mapName_injective p role (hm.trans hn.symm)
  simp only [claims, List.mem_cons, List.not_mem_nil, or_false] at h
  rcases h with rfl | rfl | rfl | rfl | rfl | rfl
  · exact hunique hname hm hn
  · exact hunique hname hm hn
  · exact hunique hname hm hn
  · exact hunique hname.singularSnake hm hn
  · exact hunique hname.singularSnake hm hn
  · exact hunique hname.pluralSnake hm hn

/-- Numbered names are apart from all that are taken unless they meet a claim of one. -/
theorem apart_of_unclaimed {n : Nat}
    (h : ∀ claim ∈ taken.flatMap (claims p table), ¬ claim n) :
    ∀ b ∈ taken, (numbered p table n).Apart b := by
  intro b hb
  have hclaims : ∀ claim ∈ claims p table b, ¬ claim n := fun claim hclaim =>
    h claim (List.mem_flatMap.2 ⟨b, hb, hclaim⟩)
  simp only [claims, List.forall_mem_cons] at hclaims
  obtain ⟨h₁, h₂, h₃, h₄, h₅, h₆, -⟩ := hclaims
  exact ⟨h₁, h₂, h₃, h₄, h₅, h₆⟩

/-- One of the numbers that are tried gives names that are free. -/
theorem exists_free (p : Profile) (taken : List EntityNames) (table : String) :
    ∃ n ∈ List.range' 2 (6 * taken.length + 1), ∀ b ∈ taken, (numbered p table n).Apart b := by
  have hlength : (taken.flatMap (claims p table)).length = 6 * taken.length := by
    induction taken with
    | nil => rfl
    | cons b rest ih =>
      rw [List.flatMap_cons, List.length_append, ih, List.length_cons]
      simp only [claims, List.length_cons, List.length_nil]
      omega
  have hunique : ∀ claim ∈ taken.flatMap (claims p table), ∀ m n, claim m → claim n → m = n := by
    intro claim hclaim
    obtain ⟨b, -, hb⟩ := List.mem_flatMap.1 hclaim
    exact claim_unique hb
  obtain ⟨n, hn, hfree⟩ := exists_unclaimed hunique
    (List.nodup_range' (s := 2) (n := 6 * taken.length + 1) 1) (by rw [List.length_range']; omega)
  exact ⟨n, hn, apart_of_unclaimed hfree⟩

-- ---------------------------------------------------------------------------
-- The search
-- ---------------------------------------------------------------------------

/-- The search for names next to those that are taken. A candidate that clashes with one of them
gives way to the names with the number `n`, and the number after it is the next one. -/
inductive Search (p : Profile) (taken : List EntityNames) (table : String) :
    EntityNames → Nat → EntityNames → Prop
  | free {candidate : EntityNames} {n : Nat} (h : taken.any candidate.clashes = false) :
      Search p taken table candidate n candidate
  | clash {candidate found : EntityNames} {n : Nat} (h : taken.any candidate.clashes = true)
      (rest : Search p taken table (numbered p table n) (n + 1) found) :
      Search p taken table candidate n found

/-- A search that finds something finds names that are free. -/
theorem Search.apart {candidate found : EntityNames} {n : Nat}
    (h : Search p taken table candidate n found) : ∀ b ∈ taken, found.Apart b := by
  induction h with
  | free h => exact any_clashes_eq_false_iff.1 h
  | clash _ _ ih => exact ih

/-- A search finds its first candidate or names with a number. -/
theorem Search.found_cases {candidate found : EntityNames} {n : Nat}
    (h : Search p taken table candidate n found) :
    found = candidate ∨ ∃ m, found = numbered p table m := by
  induction h with
  | free _ => exact .inl rfl
  | @clash candidate found n _ _ ih => exact .inr (ih.elim (fun heq => ⟨n, heq⟩) id)

/-- From one number the search goes on to the first number that is free. -/
theorem search_numbered {m : Nat} (hfree : taken.any (numbered p table m).clashes = false)
    {n : Nat} (hn : n ≤ m)
    (hclash : ∀ k, n ≤ k → k < m → taken.any (numbered p table k).clashes = true) :
    Search p taken table (numbered p table n) (n + 1) (numbered p table m) := by
  -- induction on how far the free number is away
  induction hdistance : m - n generalizing n with
  | zero =>
    obtain rfl : n = m := by omega
    exact .free hfree
  | succ distance ih =>
    refine .clash (hclash n le_rfl (by omega)) (ih (by omega) (fun k hk => hclash k (by omega)) ?_)
    omega

/-- The search from the plain names on ends, with the names that are given. -/
theorem search_free (p : Profile) (taken : List EntityNames) (table : String) :
    Search p taken table (ofTable p table) 2 (free p taken table) := by
  unfold free
  dsimp only
  split
  · rename_i hplain
    exact .free (by simpa using hplain)
  · rename_i hplain
    cases hfind : (List.range' 2 (6 * taken.length + 1)).find?
        fun n => !taken.any (numbered p table n).clashes with
    | none =>
      -- some number is free
      obtain ⟨n, hn, hfree⟩ := exists_free p taken table
      have hclash := List.find?_eq_none.1 hfind n hn
      rw [any_clashes_eq_false_iff.2 hfree] at hclash
      exact absurd rfl hclash
    | some m =>
      obtain ⟨hfree, hm, hleast⟩ := List.find?_range'_eq_some.1 hfind
      rw [List.mem_range'_1] at hm
      refine .clash (by simpa using hplain) (search_numbered (by simpa using hfree) hm.1 ?_)
      intro k hk hkm
      simpa using hleast k hk hkm

end EntityNames

-- ---------------------------------------------------------------------------
-- Name tables
-- ---------------------------------------------------------------------------

namespace NameTable

open EntityNames (Search)

/-- Names as they are assigned: each entry is what the search found next to the entries before it.
-/
structure Assigned (p : Profile) (names : List (String × EntityNames)) : Prop where
  searched : ∀ before table found after, names = before ++ (table, found) :: after →
    Search p (before.map (·.2)) table (.ofTable p table) 2 found
  apart    : names.Pairwise fun a b => a.2.Apart b.2

variable {p : Profile} {names : List (String × EntityNames)} {s : Schema}

theorem Assigned.nil (p : Profile) : Assigned p [] :=
  ⟨fun before _ _ _ h => absurd h.symm (List.append_ne_nil_of_right_ne_nil before (by simp)), .nil⟩

/-- One more entity is named. -/
theorem Assigned.concat (h : Assigned p names) (table : String) :
    Assigned p (names ++ [(table, .free p (names.map (·.2)) table)]) := by
  have hsearch := EntityNames.search_free p (names.map (·.2)) table
  refine ⟨fun before table' found after heq => ?_, ?_⟩
  · rcases List.eq_nil_or_concat after with rfl | ⟨more, last, rfl⟩
    · obtain ⟨rfl, hentry⟩ := List.append_inj' heq rfl
      cases hentry
      exact hsearch
    · rw [List.concat_eq_append, ← List.cons_append, ← List.append_assoc] at heq
      exact h.searched before table' found more (List.append_inj' heq rfl).1
  · refine List.pairwise_append.2 ⟨h.apart, List.pairwise_singleton _ _, fun a ha b hb => ?_⟩
    rw [List.mem_singleton.1 hb]
    exact (hsearch.apart a.2 (List.mem_map_of_mem ha)).symm

/-- Entities are named one after the other, each under the name of its table. -/
theorem assigned_foldl (h : Assigned p names) (tables : List Table) :
    let named := tables.foldl (fun names t =>
      names ++ [(t.name, EntityNames.free p (names.map (·.2)) t.name)]) names
    Assigned p named ∧ named.map (·.1) = names.map (·.1) ++ tables.map (·.name) := by
  induction tables generalizing names with
  | nil => exact ⟨h, (List.append_nil _).symm⟩
  | cons t rest ih =>
    obtain ⟨hassigned, hkeys⟩ := ih (h.concat t.name)
    refine ⟨hassigned, hkeys.trans ?_⟩
    rw [List.map_append, List.append_assoc]
    rfl

theorem assigned_assign (s : Schema) (p : Profile) : Assigned p (assign s p).names :=
  (assigned_foldl (.nil p) s.orderedEntities).1

theorem keys_assign (s : Schema) (p : Profile) :
    (assign s p).names.map (·.1) = s.orderedEntities.map (·.name) :=
  (assigned_foldl (.nil p) s.orderedEntities).2

/-- The names of an entity are looked up. -/
theorem exists_get? {table : String} (h : table ∈ s.orderedEntities.map (·.name)) :
    ∃ found, (assign s p).get? table = some found := by
  rw [← keys_assign s p] at h
  cases hget : (assign s p).get? table with
  | some found => exact ⟨found, rfl⟩
  | none =>
    obtain ⟨entry, hentry, rfl⟩ := List.mem_map.1 h
    exact absurd (List.lookup_eq_none_iff.1 hget entry hentry) (by simp)

theorem mem_of_get? {t : NameTable} {table : String} {found : EntityNames}
    (h : t.get? table = some found) : (table, found) ∈ t.names := by
  obtain ⟨before, after, heq, -⟩ := List.lookup_eq_some_iff.1 h
  rw [heq]
  exact List.mem_append_right before List.mem_cons_self

/-- What is looked up under different names is apart. -/
theorem apart_of_get? {a b : String} {na nb : EntityNames} (hne : a ≠ b)
    (ha : (assign s p).get? a = some na) (hb : (assign s p).get? b = some nb) : na.Apart nb := by
  have : Std.Symm fun x y : String × EntityNames => x.2.Apart y.2 := ⟨fun _ _ h => h.symm⟩
  exact (assigned_assign s p).apart.forall (mem_of_get? ha) (mem_of_get? hb)
    fun heq => hne (congrArg Prod.fst heq)

end NameTable

/-- **Names.** Whatever names are taken, the search for free ones ends. In the schema of a script,
for any profile, the entities are named in generation order, each with what the search finds next to
those before it, and any two of them have names that differ in every use. -/
theorem assigned_names_apart (script : String) (dialect : Dialect) (p : Profile) :
    let s := Schema.infer (Extraction.ofScript script dialect).catalog
    let names := NameTable.assign s p
    (∀ taken table, ∃ found, EntityNames.Search p taken table (.ofTable p table) 2 found) ∧
    NameTable.Assigned p names.names ∧ names.names.map (·.1) = s.order ∧
    ∀ a ∈ s.order, ∃ na, names.get? a = some na ∧
      ∀ b ∈ s.order, b ≠ a → ∃ nb, names.get? b = some nb ∧ na.Apart nb := by
  intro s names
  have hreferential := referential_ofStatements (dialect.resolve script) (originsOf script)
  have hnodup := hreferential.distinct.nodup
  have horder : s.orderedEntities.map (·.name) = s.order := orderedEntities_infer hnodup
  have hget : ∀ a ∈ s.order, ∃ na, names.get? a = some na := fun a ha =>
    NameTable.exists_get? (horder ▸ ha)
  refine ⟨fun taken table => ⟨_, EntityNames.search_free p taken table⟩,
    NameTable.assigned_assign s p, (NameTable.keys_assign s p).trans horder, fun a ha => ?_⟩
  obtain ⟨na, hna⟩ := hget a ha
  refine ⟨na, hna, fun b hb hne => ?_⟩
  obtain ⟨nb, hnb⟩ := hget b hb
  exact ⟨nb, hnb, NameTable.apart_of_get? hne.symm hna hnb⟩

end CrudGen
