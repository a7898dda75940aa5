import Mathlib.Data.List.Find
import Mathlib.Data.List.Forall2
import CrudGen.Proofs.Entity.Build
import CrudGen.Proofs.Naming.Characters

/-!
# Entities — relations as views

The relations of an entity are its views of relationships, one after the other, each under a name
that no field and no relation before it has. `Entity.Shows` pairs the two, so that what is said
about a relation can be told by the relationship that it shows.

A name that is in use gets a hint at the columns of the relation, and then a number. The numbers are
tried one after the other, and nothing bounds them but that the search ends: `MemberSearch` is that
search. It does end, since a name in use stands in the way of one number only.

What an entity, its fields and its relations are called in generated code has only characters that
may stand in a name, whatever the tables and columns are called.

Main results:

* `names_relationsFrom` — the names of relations differ from each other and from those in use.
* `shown_of_mem` — every relation shows a view of a relationship, from the end of its entity.
* `exists_find?` — what is searched for among views is found among relations.
* `member_names_apart` — the members of an entity are called differently.
* `tame_of_mem` — the names of an entity of a schema.
-/

namespace CrudGen

open Naming
open Sql (Dialect)

-- ---------------------------------------------------------------------------
-- Views
-- ---------------------------------------------------------------------------

namespace Relationship

/-- A relationship as one of its ends sees it: the target if `inverse` holds, or else the owner. -/
def seen (r : Relationship) (inverse : Bool) : RelationView :=
  if inverse then r.backward else r.forward

/-- The table at the end that a relationship is seen from. -/
def near (r : Relationship) (inverse : Bool) : String :=
  if inverse then r.target else r.owner

/-- The columns that stand for the end that a relationship is seen from. -/
def nearColumns (r : Relationship) (inverse : Bool) : List String :=
  if inverse then r.targetColumns else r.columns

variable (r : Relationship) (inverse : Bool)

@[simp] theorem seen_source : (r.seen inverse).source = r.near inverse := by
  cases inverse <;> rfl

@[simp] theorem seen_other : (r.seen inverse).other = r.near (!inverse) := by
  cases inverse <;> rfl

@[simp] theorem seen_relationship : (r.seen inverse).relationship = r := by
  cases inverse <;> rfl

@[simp] theorem seen_inverse : (r.seen inverse).inverse = inverse := by
  cases inverse <;> rfl

end Relationship

/-- The views of a table that become relations: those of entities. -/
def Schema.viewsOf (s : Schema) (table : String) : List RelationView :=
  (s.relationsOf table).filter fun v => !s.isJunction v.other

/-- A table has a view of each relationship that ends at it and at no junction beyond. -/
theorem Schema.mem_viewsOf_iff {s : Schema} {table : String} {v : RelationView} :
    v ∈ s.viewsOf table ↔ ∃ r ∈ s.relationships, v = r.seen v.inverse ∧
      r.near v.inverse = table ∧ s.isJunction v.other = false := by
  rw [viewsOf, List.mem_filter, relationsOf, outgoing, incoming, List.mem_append]
  simp only [List.mem_map, List.mem_filter, beq_iff_eq, Bool.not_eq_true', and_assoc]
  constructor
  · rintro ⟨⟨r, hr, rfl, rfl⟩ | ⟨r, hr, rfl, rfl⟩, hother⟩
    · exact ⟨r, hr, rfl, rfl, hother⟩
    · exact ⟨r, hr, rfl, rfl, hother⟩
  · rintro ⟨r, hr, hv, hnear, hother⟩
    refine ⟨?_, hother⟩
    cases hinverse : v.inverse with
    | false =>
      rw [hinverse] at hv hnear
      exact .inl ⟨r, hr, hnear, hv.symm⟩
    | true =>
      rw [hinverse] at hv hnear
      exact .inr ⟨r, hr, hnear, hv.symm⟩

/-- The columns of an entity that are joined, where those of a relationship are `columns`: what the
junction refers to by them, if there is one. -/
def Schema.joinColumns (s : Schema) (via : Option String) (columns : List String) : List String :=
  match via with
  | some junction => s.referenced junction columns
  | none => columns

namespace RelationView

variable (v : RelationView) (s : Schema) (p : Profile) (names : NameTable) (name : String)

/-- A relation has the name that it is given. -/
@[simp] theorem relation_name : (v.relation s p names name).name = name :=
  rfl

@[simp] theorem relation_targetTable : (v.relation s p names name).targetTable = v.other :=
  rfl

@[simp] theorem relation_inverse : (v.relation s p names name).inverse = v.inverse :=
  rfl

/-- Its columns on this side are those that are joined with the near ones. -/
@[simp] theorem relation_localColumns : (v.relation s p names name).localColumns =
    s.joinColumns v.relationship.via (v.relationship.nearColumns v.inverse) := by
  unfold relation
  cases v.inverse <;> rfl

/-- Its columns on the other side are those that are joined with the far ones. -/
@[simp] theorem relation_remoteColumns : (v.relation s p names name).remoteColumns =
    s.joinColumns v.relationship.via (v.relationship.nearColumns (!v.inverse)) := by
  unfold relation
  cases v.inverse <;> rfl

@[simp] theorem relation_via : (v.relation s p names name).via =
    v.relationship.via.map fun junction =>
      { table := junction
        localColumns := v.relationship.nearColumns v.inverse
        remoteColumns := v.relationship.nearColumns (!v.inverse) } := by
  unfold relation
  cases v.inverse <;> rfl

end RelationView

-- ---------------------------------------------------------------------------
-- Names
-- ---------------------------------------------------------------------------

/-- The search for a name next to those that are used. A candidate that is used gives way to the
stem with the number `n`, and the number after it is the next one. -/
inductive MemberSearch (p : Profile) (used : List String) (stem : String) :
    String → Nat → String → Prop
  | free {candidate : String} {n : Nat} (h : candidate ∉ used) :
      MemberSearch p used stem candidate n candidate
  | taken {candidate found : String} {n : Nat} (h : candidate ∈ used)
      (rest : MemberSearch p used stem (p.mapName (stem ++ "_" ++ toString n) .field) (n + 1)
        found) : MemberSearch p used stem candidate n found

section Search

variable {p : Profile} {used : List String} {stem : String}

/-- A search finds a name that is not used. -/
theorem MemberSearch.not_mem {candidate found : String} {n : Nat}
    (h : MemberSearch p used stem candidate n found) : found ∉ used := by
  induction h with
  | free h => exact h
  | taken _ _ ih => exact ih

/-- From one number the search goes on to the first number that is free. -/
theorem memberSearch_numbered {m : Nat}
    (hfree : p.mapName (stem ++ "_" ++ toString m) .field ∉ used) {n : Nat} (hn : n ≤ m)
    (htaken : ∀ k, n ≤ k → k < m → p.mapName (stem ++ "_" ++ toString k) .field ∈ used) :
    MemberSearch p used stem (p.mapName (stem ++ "_" ++ toString n) .field) (n + 1)
      (p.mapName (stem ++ "_" ++ toString m) .field) := by
  -- induction on how far the free number is away
  induction hdistance : m - n generalizing n with
  | zero =>
    obtain rfl : n = m := by omega
    exact .free hfree
  | succ distance ih =>
    refine .taken (htaken n le_rfl (by omega)) (ih (by omega) (fun k hk => htaken k (by omega)) ?_)
    omega

/-- One of the numbers that are tried gives a name that is free. -/
theorem exists_free_number (p : Profile) (used : List String) (stem : String) :
    ∃ n ∈ List.range' 2 (used.length + 1), p.mapName (stem ++ "_" ++ toString n) .field ∉ used := by
  -- a name in use stands in the way of one number at most
  have hclaims : ∀ claim ∈ used.map fun name n =>
      p.mapName (stem ++ "_" ++ toString n) .field = name, ∀ m n : Nat, claim m → claim n → m = n := by
    intro claim hclaim m n hm hn
    obtain ⟨name, -, rfl⟩ := List.mem_map.1 hclaim
    exact (Numbered.behind stem).mapName_injective p .field (hm.trans hn.symm)
  obtain ⟨n, hn, hfree⟩ := exists_unclaimed hclaims
    (List.nodup_range' (s := 2) (n := used.length + 1) 1) (by simp)
  exact ⟨n, hn, fun hmem => hfree _ (List.mem_map_of_mem hmem) rfl⟩

/-- The search from a stem on ends, with the name that is given. -/
theorem memberSearch_freeName (p : Profile) (used : List String) (stem : String) :
    MemberSearch p used stem stem 2 (freeName p used stem) := by
  unfold freeName
  dsimp only
  split
  · rename_i hplain
    exact .free (by simpa using hplain)
  · rename_i hplain
    cases hfind : (List.range' 2 (used.length + 1)).find?
        fun n => !used.contains (p.mapName (stem ++ "_" ++ toString n) .field) with
    | none =>
      -- some number is free
      obtain ⟨n, hn, hfree⟩ := exists_free_number p used stem
      exact absurd (List.find?_eq_none.1 hfind n hn) (by simpa using hfree)
    | some m =>
      obtain ⟨hfree, hm, hleast⟩ := List.find?_range'_eq_some.1 hfind
      rw [List.mem_range'_1] at hm
      refine .taken (by simpa using hplain) (memberSearch_numbered (by simpa using hfree) hm.1 ?_)
      intro k hk hkm
      simpa using hleast k hk hkm

end Search

/-- The first name that is tried for a relation: what it is named after, with a hint at its columns
if this is used. -/
def RelationView.candidate (p : Profile) (used : List String) (v : RelationView) : String :=
  let plain := p.mapName v.stem .field
  if used.contains plain then
    let columns := v.relationship.columns
    p.mapName (v.stem ++ "_by_" ++ (keyStem? columns).getD ("_".intercalate columns)) .field
  else plain

/-- The name of a relation is what the search finds. -/
theorem memberSearch_memberName (p : Profile) (used : List String) (v : RelationView) :
    MemberSearch p used (v.candidate p used) (v.candidate p used) 2 (v.memberName p used) := by
  unfold RelationView.candidate RelationView.memberName
  dsimp only
  split
  · exact memberSearch_freeName p used _
  · rename_i hplain
    exact .free (by simpa using hplain)

section RelationsFrom

variable (s : Schema) (p : Profile) (names : NameTable)

/-- Views become relations one by one, each under some name. -/
theorem shape_relationsFrom (used : List String) (views : List RelationView) :
    List.Forall₂ (fun v r => ∃ name, r = v.relation s p names name) views
      (relationsFrom s p names used views) := by
  induction views generalizing used with
  | nil => exact .nil
  | cons v rest ih => exact .cons ⟨_, rfl⟩ (ih _)

/-- The names of relations differ from each other and from those in use. -/
theorem names_relationsFrom (used : List String) (views : List RelationView) :
    ((relationsFrom s p names used views).map (·.name)).Nodup ∧
      ∀ r ∈ relationsFrom s p names used views, r.name ∉ used := by
  induction views generalizing used with
  | nil => exact ⟨.nil, by simp [relationsFrom]⟩
  | cons v rest ih =>
    obtain ⟨hnodup, hfresh⟩ := ih (used ++ [v.memberName p used])
    simp only [List.mem_append, List.mem_singleton, not_or] at hfresh
    rw [relationsFrom, List.map_cons, List.nodup_cons, List.forall_mem_cons]
    refine ⟨⟨?_, hnodup⟩, (memberSearch_memberName p used v).not_mem, fun r hr => (hfresh r hr).1⟩
    rw [List.mem_map]
    rintro ⟨r, hr, hsame⟩
    exact (hfresh r hr).2 hsame

/-- Each relation has the name that is found next to those in use and those of the relations before
it. -/
theorem searched_relationsFrom {used : List String} {views : List RelationView}
    {before after : List Relation} {r : Relation}
    (h : relationsFrom s p names used views = before ++ r :: after) :
    ∃ earlier v later, views = earlier ++ v :: later ∧ earlier.length = before.length ∧
      let taken := used ++ before.map (·.name)
      MemberSearch p taken (v.candidate p taken) (v.candidate p taken) 2 r.name := by
  -- induction on the relations before this one, each of which adds its name to those in use
  induction before generalizing used views with
  | nil =>
    cases views with
    | nil => cases h
    | cons v rest =>
      rw [relationsFrom, List.nil_append, List.cons.injEq] at h
      refine ⟨[], v, rest, rfl, rfl, ?_⟩
      rw [← h.1, RelationView.relation_name, List.map_nil, List.append_nil]
      exact memberSearch_memberName p used v
  | cons first before ih =>
    cases views with
    | nil => cases h
    | cons v rest =>
      rw [relationsFrom, List.cons_append, List.cons.injEq] at h
      obtain ⟨rfl, hrest⟩ := h
      obtain ⟨earlier, w, later, rfl, hlength, hsearch⟩ := ih hrest
      refine ⟨v :: earlier, w, later, rfl, congrArg (· + 1) hlength, ?_⟩
      rw [List.append_assoc] at hsearch
      exact hsearch

end RelationsFrom

-- ---------------------------------------------------------------------------
-- What relations show
-- ---------------------------------------------------------------------------

/-- A relation of an entity shows a view: they stand at the same place. -/
def Entity.Shows (e : Entity) (s : Schema) (v : RelationView) (r : Relation) : Prop :=
  (v, r) ∈ (s.viewsOf e.table.name).zip e.relations

variable {s : Schema} {p : Profile} {e : Entity}

/-- The relations of an entity are made from its views, next to its fields. -/
theorem relations_of_mem (he : e ∈ s.entityModels p) : e.relations =
    relationsFrom s p (.assign s p) (e.fields.map (·.name)) (s.viewsOf e.table.name) := by
  have hbuilt := (build_of_mem he).2
  rw [congrArg Entity.relations hbuilt, congrArg Entity.fields hbuilt]
  rfl

/-- The views of an entity and its relations correspond. -/
theorem shape_of_mem (he : e ∈ s.entityModels p) :
    List.Forall₂ (fun v r => ∃ name, r = v.relation s p (.assign s p) name)
      (s.viewsOf e.table.name) e.relations := by
  rw [relations_of_mem he]
  exact shape_relationsFrom s p _ _ _

/-- The members of an entity that are relations have names that differ from each other and from
those of its fields. -/
theorem names_of_mem (he : e ∈ s.entityModels p) :
    (e.relations.map (·.name)).Nodup ∧ ∀ r ∈ e.relations, r.name ∉ e.fields.map (·.name) := by
  rw [relations_of_mem he]
  exact names_relationsFrom s p _ _ _

namespace Entity.Shows

variable {v : RelationView} {r : Relation}

/-- A relation is the view that it shows, under its name. -/
theorem eq (he : e ∈ s.entityModels p) (h : e.Shows s v r) :
    r = v.relation s p (.assign s p) r.name := by
  obtain ⟨name, rfl⟩ := (List.forall₂_iff_zip.1 (shape_of_mem he)).2 h
  rfl

/-- A relation that shows a view is one of its entity, and the view is one of its table. -/
theorem mem (h : e.Shows s v r) : v ∈ s.viewsOf e.table.name ∧ r ∈ e.relations :=
  List.of_mem_zip h

/-- What is shown is a relationship that ends at the table of the entity and at no junction. -/
theorem relationship (h : e.Shows s v r) : v.relationship ∈ s.relationships ∧
    v = v.relationship.seen v.inverse ∧ v.relationship.near v.inverse = e.table.name ∧
    s.isJunction v.other = false := by
  obtain ⟨rel, hrel, hv, hnear, hother⟩ := Schema.mem_viewsOf_iff.1 h.mem.1
  have hsame : v.relationship = rel := by
    rw [hv, Relationship.seen_relationship]
  exact hsame ▸ ⟨hrel, hv, hnear, hother⟩

end Entity.Shows

/-- Every relation shows a view. -/
theorem shown_of_mem (he : e ∈ s.entityModels p) {r : Relation} (hr : r ∈ e.relations) :
    ∃ v, e.Shows s v r := by
  have hzip := List.map_snd_zip (shape_of_mem he).length_eq.ge
  rw [← hzip] at hr
  obtain ⟨⟨v, r'⟩, hshown, rfl⟩ := List.mem_map.1 hr
  exact ⟨v, hshown⟩

/-- Every view of an entity is shown by a relation. -/
theorem exists_shown (he : e ∈ s.entityModels p) {v : RelationView}
    (hv : v ∈ s.viewsOf e.table.name) : ∃ r, e.Shows s v r := by
  have hzip := List.map_fst_zip (shape_of_mem he).length_eq.le
  rw [← hzip] at hv
  obtain ⟨⟨v', r⟩, hshown, rfl⟩ := List.mem_map.1 hv
  exact ⟨r, hshown⟩

/-- Two views of an entity are shown by two relations. -/
theorem exists_shown_pair (he : e ∈ s.entityModels p) {v v' : RelationView}
    (hviews : [v, v'].Sublist (s.viewsOf e.table.name)) :
    ∃ r r', e.Shows s v r ∧ e.Shows s v' r' ∧ r ≠ r' := by
  have hlength := (shape_of_mem he).length_eq
  rw [← List.map_fst_zip hlength.le, List.sublist_map_iff] at hviews
  obtain ⟨pairs, hsublist, hpairs⟩ := hviews
  obtain ⟨⟨w, r⟩, ⟨w', r'⟩, rfl⟩ :=
    List.length_eq_two.1 (by simpa using (congrArg List.length hpairs).symm)
  obtain ⟨rfl, rfl⟩ : v = w ∧ v' = w' := by simpa using hpairs
  refine ⟨r, r', hsublist.subset (by simp), hsublist.subset (by simp), fun hsame => ?_⟩
  -- the names of relations differ
  have hrelations := hsublist.map (·.2)
  rw [List.map_snd_zip hlength.ge] at hrelations
  have hnames := (names_of_mem he).1.sublist (hrelations.map (·.name))
  simp [hsame] at hnames

/-- What is searched for among the views of an entity is found among its relations. -/
theorem exists_find? (he : e ∈ s.entityModels p) {wanted : Relation → Bool}
    {sought : RelationView → Bool} (hsame : ∀ v r, e.Shows s v r → wanted r = sought v)
    {v : RelationView} (hfind : (s.viewsOf e.table.name).find? sought = some v) :
    ∃ r, e.Shows s v r ∧ e.relations.find? wanted = some r := by
  have hlength := (shape_of_mem he).length_eq
  let shown := (s.viewsOf e.table.name).zip e.relations
  have hviews : shown.map (·.1) = s.viewsOf e.table.name := List.map_fst_zip hlength.le
  have hrelations : shown.map (·.2) = e.relations := List.map_snd_zip hlength.ge
  rw [← hviews, List.find?_map, Option.map_eq_some_iff] at hfind
  obtain ⟨⟨v', r⟩, hpair, rfl⟩ := hfind
  refine ⟨r, List.mem_of_find?_eq_some hpair, ?_⟩
  have hwanted : shown.find? (wanted ∘ (·.2)) = shown.find? (sought ∘ (·.1)) :=
    List.find?_congr fun pair hmem => hsame pair.1 pair.2 hmem
  rw [← hrelations, List.find?_map, hwanted, hpair]
  rfl

/-- **Members.** Whatever names are used, the search for a free one ends. In the schema of a script,
under any profile, the relations of an entity are named in turn, each with what the search finds
next to the fields and the relations before it. So they are called differently from each other and
from all fields. -/
theorem member_names_apart (script : String) (dialect : Dialect) (p : Profile) :
    let s := Schema.infer (Extraction.ofScript script dialect).catalog
    (∀ used stem, ∃ found, MemberSearch p used stem stem 2 found) ∧
    ∀ e ∈ s.entityModels p,
      (∀ before r after, e.relations = before ++ r :: after → ∃ v, e.Shows s v r ∧
        let used := e.fields.map (·.name) ++ before.map (·.name)
        MemberSearch p used (v.candidate p used) (v.candidate p used) 2 r.name) ∧
      (e.relations.map (·.name)).Nodup ∧ ∀ r ∈ e.relations, ∀ f ∈ e.fields, r.name ≠ f.name := by
  intro s
  refine ⟨fun used stem => ⟨_, memberSearch_freeName p used stem⟩, fun e he => ?_⟩
  obtain ⟨hnodup, hapart⟩ := names_of_mem he
  refine ⟨fun before r after hsplit => ?_, hnodup, fun r hr f hf hsame => ?_⟩
  · have hrelations := relations_of_mem he
    obtain ⟨earlier, v, later, hviews, hlength, hsearch⟩ :=
      searched_relationsFrom s p _ (hrelations.symm.trans hsplit)
    refine ⟨v, ?_, hsearch⟩
    rw [Entity.Shows, hviews, hsplit, List.zip_append hlength, List.zip_cons_cons]
    exact List.mem_append_right _ List.mem_cons_self
  · exact hapart r hr (hsame ▸ List.mem_map_of_mem hf)

-- ---------------------------------------------------------------------------
-- Characters
-- ---------------------------------------------------------------------------

/-- Names whose characters may stand in names. -/
structure Entity.Tame (e : Entity) : Prop where
  entity  : TameName e.names.entity
  file    : TameName e.names.file
  field   : ∀ f ∈ e.fields, TameName f.name
  loader  : ∀ r ∈ e.relations, TameName r.name
  related : ∀ r ∈ e.relations, TameName r.targetEntity

/-- A name that is free of others is tame if it was. -/
theorem tame_freeName (used : List String) {name : String} (h : TameName name) :
    TameName (freeName p used name) := by
  unfold freeName
  dsimp only
  split
  · exact h
  · exact tame_mapName _ _ _

/-- The name of a member is tame. -/
theorem tame_memberName (used : List String) (v : RelationView) :
    TameName (v.memberName p used) := by
  unfold RelationView.memberName
  dsimp only
  split
  · exact tame_freeName used (tame_mapName _ _ _)
  · exact tame_mapName _ _ _

theorem tame_relationsFrom (names : NameTable) (used : List String) (views : List RelationView) :
    ∀ r ∈ relationsFrom s p names used views, TameName r.name := by
  induction views generalizing used with
  | nil => exact fun r hr => absurd hr List.not_mem_nil
  | cons v rest ih =>
    rw [relationsFrom, List.forall_mem_cons]
    exact ⟨tame_memberName used v, ih _⟩

/-- The names of an entity, of its fields and of its relations have only characters that may stand in
names. -/
theorem tame_of_mem (he : e ∈ s.entityModels p) : e.Tame := by
  have hfields : e.fields = e.table.columns.map (Field.ofColumn p e.table) :=
    congrArg Entity.fields (build_of_mem he).2
  obtain ⟨name, hnames⟩ := names_of_entity he
  -- entity, file, fields, loaders and related entities are all names of the profile
  refine ⟨?_, ?_, ?_, ?_, fun r hr => ?_⟩
  · rw [hnames]
    exact tame_mapName _ _ _
  · rw [hnames]
    exact tame_mapName _ _ _
  · rw [hfields, List.forall_mem_map]
    exact fun c _ => tame_mapName _ _ _
  · rw [relations_of_mem he]
    exact tame_relationsFrom _ _ _
  · obtain ⟨v, hshown⟩ := shown_of_mem he hr
    obtain ⟨other, hother⟩ := resolve_names s p v.other
    rw [hshown.eq he]
    have htarget : (v.relation s p (.assign s p) r.name).targetEntity =
        ((NameTable.assign s p).resolve p v.other).entity := rfl
    rw [htarget, hother]
    exact tame_mapName _ _ _

end CrudGen
