import CrudGen.Proofs.Entity.Joins
import CrudGen.Proofs.Server.FileSet
import CrudGen.Server.Blueprint

/-!
# Blueprints — relations, their counterparts and where they lead

The counterpart of a relation is the relation at the other end of the same relationship. It is
looked up by what the two ends agree on: the tables, the columns, and the junction. Where two
foreign keys of a table agree in all of this, the first one is found for both, and the counterpart
of the second relation does not lead back to it.

A relation names the entity at its other end and the module of that entity, so that generated code
can import it. Both names are those that the entity is assigned, also where they are numbered
because another table has them, and the entity is one of those that files are written for.

Main results:

* `counterpart?_of_shown` — the counterpart is there, and shows the first relationship of its ends.
* `counterparts_pair_up` — counterparts are inverse to each other exactly if no two relationships
  have the same ends.
* `counterparts_shared` — a foreign key that is declared twice breaks this.
* `leadsTo_of_shown` — a relation leads to the one entity of the table that it shows.
* `relations_lead_to_entities` — so do all relations of a blueprint, and the imports made of them.
-/

namespace CrudGen

open Sql (Dialect)

-- ---------------------------------------------------------------------------
-- Ends
-- ---------------------------------------------------------------------------

namespace Relationship

/-- The tables at both ends of a relationship with the columns there, and the junction. -/
abbrev Ends :=
  (String × List String) × (String × List String) × Option String

/-- What both ends of a relationship agree on. -/
def ends (r : Relationship) : Ends :=
  ((r.owner, r.columns), (r.target, r.targetColumns), r.via)

theorem ends_eq_iff {r r' : Relationship} : r.ends = r'.ends ↔
    (∀ inverse, r.near inverse = r'.near inverse ∧
      r.nearColumns inverse = r'.nearColumns inverse) ∧ r.via = r'.via := by
  rw [Bool.forall_bool]
  simp only [ends, Prod.mk.injEq, and_assoc]
  rfl

end Relationship

variable {c : Catalog}

/-- A junction makes one relationship. -/
theorem filter_home_of_via (h : c.Referential) {rel : Relationship}
    (hrel : rel ∈ (Schema.infer c).relationships) {junction : String}
    (hvia : rel.via = some junction) :
    (Schema.infer c).relationships.filter (·.home == junction) = [rel] := by
  obtain ⟨t, ht, hfrom⟩ := comesFrom_of_mem h hrel
  have hhome : rel.home = junction := by
    rw [Relationship.home, hvia, Option.getD_some]
  -- a relationship with a junction is the one that the junction makes
  cases hfrom with
  | entity hkind hfk htarget howner hend hout =>
    cases hout with
    | related _ _ _ _ _ hnone =>
      rw [hnone] at hvia
      cases hvia
  | junction hjunction hlinks =>
    obtain rfl : t.name = junction := Option.some_inj.1 (hlinks.via.symm.trans hvia)
    have hmem : rel ∈ (Schema.infer c).relationships.filter (·.home == t.name) :=
      List.mem_filter.2 ⟨hrel, by simp [hhome]⟩
    cases accountedFor_infer h.distinct.nodup ht with
    | entity _ hkind =>
      rw [kind_eq_junction_iff.2 hjunction] at hkind
      cases hkind
    | junction r _ _ hrelationships =>
      rw [hrelationships] at hmem ⊢
      rw [List.mem_singleton.1 hmem]

theorem eq_of_via (h : c.Referential) {rel rel' : Relationship}
    (hrel : rel ∈ (Schema.infer c).relationships) (hrel' : rel' ∈ (Schema.infer c).relationships)
    {junction : String} (hvia : rel.via = some junction) (hvia' : rel'.via = some junction) :
    rel = rel' := by
  have hsame := (filter_home_of_via h hrel hvia).symm.trans (filter_home_of_via h hrel' hvia')
  exact List.singleton_inj.1 hsame

/-- Only relationships of foreign keys may have their ends in common. -/
theorem via_of_twins (h : c.Referential) {rel rel' : Relationship}
    (htwins : [rel, rel'].Sublist (Schema.infer c).relationships) (hends : rel.ends = rel'.ends) :
    rel.via = none := by
  cases hvia : rel.via with
  | none => rfl
  | some junction =>
    have hvia' : rel'.via = some junction := (Relationship.ends_eq_iff.1 hends).2 ▸ hvia
    have hhome : ∀ r ∈ [rel, rel'], r.home == junction := by
      simp [Relationship.home, hvia, hvia']
    have hsublist := htwins.filter (·.home == junction)
    rw [List.filter_eq_self.2 hhome, filter_home_of_via h (htwins.subset (by simp)) hvia]
      at hsublist
    exact absurd hsublist.length_le (by simp)

-- ---------------------------------------------------------------------------
-- Entities
-- ---------------------------------------------------------------------------

variable {p : Profile} {toggles : FeatureToggles} {project : String} {e : Entity}

/-- Under the name of its table, an entity is found. -/
theorem entity?_of_mem (h : c.Referential) (he : e ∈ (Schema.infer c).entityModels p) :
    (Blueprint.ofSchema (Schema.infer c) p toggles project).entity? e.table.name = some e :=
  find?_key (nodup_tables h p) he

/-- A relation of an entity leads to an entity. -/
theorem exists_other (h : c.Referential) (p : Profile)
    {v : RelationView} {r : Relation} (hshown : e.Shows (Schema.infer c) v r) :
    ∃ other ∈ (Schema.infer c).entityModels p, other.table.name = v.other := by
  obtain ⟨hrel, hv, -, hother⟩ := hshown.relationship
  obtain ⟨t, ht, hname⟩ := exists_end h hrel (!v.inverse)
  rw [hv, Relationship.seen_other] at hother ⊢
  rw [← hname] at hother
  have hkind : t.kind = .entity := by
    rw [isJunction_infer h.distinct.nodup ht] at hother
    rw [Table.kind, hother]
    rfl
  exact ⟨_, build_mem h p ht hkind, hname⟩

-- ---------------------------------------------------------------------------
-- Looking a counterpart up
-- ---------------------------------------------------------------------------

/-- The first view of a table from one end that is wanted shows the first relationship that is. -/
theorem find?_viewsOf (s : Schema) (table : String) (inverse : Bool)
    (wanted : Relationship → Bool) :
    (s.viewsOf table).find? (fun v => v.inverse == inverse && wanted v.relationship) =
      (s.relationships.find? fun r => r.near inverse == table &&
        (!s.isJunction (r.near (!inverse)) && wanted r)).map (·.seen inverse) := by
  have hnone {views : List RelationView} (hviews : ∀ v ∈ views, v.inverse = !inverse) :
      views.find? (fun v =>
        !s.isJunction v.other && (v.inverse == inverse && wanted v.relationship)) = none := by
    refine List.find?_eq_none.2 fun v hv => ?_
    rw [hviews v hv]
    simp
  rw [Schema.viewsOf, List.find?_filter, Schema.relationsOf]
  simp only [Bool.decide_and, Bool.decide_eq_true]
  rw [List.find?_append]
  -- the views from the other end come to nothing
  cases inverse with
  | false =>
    have hincoming : ∀ v ∈ s.incoming table, v.inverse = true := by
      intro v hv
      obtain ⟨r, -, rfl⟩ := List.mem_map.1 hv
      rfl
    rw [hnone hincoming, Option.or_none, Schema.outgoing, List.find?_map, List.find?_filter]
    simp only [Bool.decide_and, Bool.decide_eq_true]
    rfl
  | true =>
    have houtgoing : ∀ v ∈ s.outgoing table, v.inverse = false := by
      intro v hv
      obtain ⟨r, -, rfl⟩ := List.mem_map.1 hv
      rfl
    rw [hnone houtgoing, Option.none_or, Schema.incoming, List.find?_map, List.find?_filter]
    simp only [Bool.decide_and, Bool.decide_eq_true]
    rfl

/-- Between the entities that a relationship joins, the counterpart of a relation is told from the
other relations by its end and by the ends of the relationship. -/
theorem isCounterpart_eq (h : c.Referential) {other : Entity}
    (he : e ∈ (Schema.infer c).entityModels p) (hother : other ∈ (Schema.infer c).entityModels p)
    {v v' : RelationView} {r r' : Relation} (hshown : e.Shows (Schema.infer c) v r)
    (hshown' : other.Shows (Schema.infer c) v' r') (hname : other.table.name = v.other) :
    (r'.targetTable == e.table.name && r'.inverse != r.inverse
      && r'.via.map (·.table) == r.via.map (·.table)
      && r'.localColumns == r.remoteColumns && r'.remoteColumns == r.localColumns) =
    (v'.inverse == !v.inverse && v'.relationship.ends == v.relationship.ends) := by
  obtain ⟨hrel, hv, hnear, -⟩ := hshown.relationship
  obtain ⟨hrel', hv', hnear', -⟩ := hshown'.relationship
  rw [hname, hv, Relationship.seen_other] at hnear'
  rw [hshown.eq he, hshown'.eq hother, Bool.eq_iff_iff, hv']
  simp only [RelationView.relation_targetTable, RelationView.relation_inverse,
    RelationView.relation_via, RelationView.relation_localColumns,
    RelationView.relation_remoteColumns, Relationship.seen_other, Relationship.seen_relationship,
    Relationship.seen_inverse, Bool.and_eq_true, beq_iff_eq, bne_iff_ne, Option.map_map,
    Function.comp_def, Option.map_id_fun', id_eq]
  -- the claim is about the two relationships and their sides only
  generalize v.relationship = rel at *
  generalize v'.relationship = rel' at *
  generalize v.inverse = inverse at *
  generalize v'.inverse = inverse' at *
  constructor
  · rintro ⟨⟨⟨⟨hback, hopposite⟩, hvia⟩, hlocal⟩, hremote⟩
    obtain rfl : inverse' = !inverse := Bool.eq_not.2 hopposite
    refine ⟨rfl, ?_⟩
    cases hjunction : rel.via with
    -- a junction has one relationship, so the same junction makes them the same
    | some junction => rw [eq_of_via h hrel' hrel (hvia.trans hjunction) hjunction]
    | none =>
      rw [hvia, hjunction] at hlocal hremote
      rw [Relationship.ends_eq_iff, Bool.forall_bool' inverse]
      rw [Bool.not_not] at hback hremote
      -- without a junction the ends are the tables and columns either side shows
      exact ⟨⟨⟨hback.trans hnear.symm, hremote⟩, hnear', hlocal⟩, hvia⟩
  · rintro ⟨rfl, hends⟩
    obtain ⟨hsame, hvia⟩ := Relationship.ends_eq_iff.1 hends
    simp [hsame, hvia, hnear]

/-- The counterpart of a relation is a relation of the other entity, which shows from there the
first relationship that has the same ends. -/
theorem counterpart?_of_shown (h : c.Referential) (toggles : FeatureToggles) (project : String)
    (he : e ∈ (Schema.infer c).entityModels p) {v : RelationView} {r : Relation}
    (hshown : e.Shows (Schema.infer c) v r) {first : Relationship}
    (hfirst : (Schema.infer c).relationships.find? (·.ends == v.relationship.ends) = some first) :
    let b := Blueprint.ofSchema (Schema.infer c) p toggles project
    ∃ other ∈ b.entities, ∃ r', b.entity? r.targetTable = some other ∧
      other.Shows (Schema.infer c) (first.seen (!v.inverse)) r' ∧ b.counterpart? e r = some r' := by
  intro b
  obtain ⟨other, hother, hname⟩ := exists_other h p hshown
  have hentity : b.entity? r.targetTable = some other := by
    rw [hshown.eq he, RelationView.relation_targetTable, ← hname]
    exact entity?_of_mem h hother
  obtain ⟨-, hv, hnear, -⟩ := hshown.relationship
  -- a relationship with these ends is seen from the other entity, and leads to this one
  have hseen : ∀ rel ∈ (Schema.infer c).relationships,
      (rel.near (!v.inverse) == other.table.name
        && (!(Schema.infer c).isJunction (rel.near (!!v.inverse))
          && rel.ends == v.relationship.ends)) = (rel.ends == v.relationship.ends) := by
    intro rel _
    rw [Bool.eq_iff_iff]
    simp only [Bool.and_eq_true, beq_iff_eq, Bool.not_eq_true', Bool.not_not]
    refine ⟨fun hall => hall.2.2, fun hends => ?_⟩
    have hsame := (Relationship.ends_eq_iff.1 hends).1
    refine ⟨?_, ?_, hends⟩
    · rw [(hsame _).1, hname, hv, Relationship.seen_other, Relationship.seen_relationship,
        Relationship.seen_inverse]
    · rw [(hsame _).1, hnear]
      exact not_isJunction_of_mem h he
  have hfind := find?_viewsOf (Schema.infer c) other.table.name (!v.inverse)
    (·.ends == v.relationship.ends)
  rw [List.find?_congr hseen, hfirst] at hfind
  obtain ⟨r', hshown', hcounterpart⟩ := exists_find? hother
    (fun v' r' hshown' => isCounterpart_eq h he hother hshown hshown' hname) hfind
  refine ⟨other, hother, r', hentity, hshown', ?_⟩
  rw [Blueprint.counterpart?, hentity]
  exact hcounterpart

/-- Where no two relationships have the same ends, a table sees none of them twice from one end. -/
theorem nodup_viewsOf {s : Schema} (hends : (s.relationships.map (·.ends)).Nodup) (table : String) :
    ((s.viewsOf table).map fun v => (v.relationship.ends, v.inverse)).Nodup := by
  have hside (wanted : Relationship → Bool) (inverse : Bool) :
      ((s.relationships.filter wanted).map fun r => (r.ends, inverse)).Nodup := by
    have hsome := hends.sublist ((List.filter_sublist (p := wanted)).map (·.ends))
    have hnodup := hsome.map (Prod.mk_left_injective inverse)
    rwa [List.map_map] at hnodup
  have hall : ((s.relationsOf table).map fun v => (v.relationship.ends, v.inverse)).Nodup := by
    rw [Schema.relationsOf, Schema.outgoing, Schema.incoming, List.map_append, List.map_map,
      List.map_map]
    refine List.nodup_append.2 ⟨hside _ false, hside _ true, fun a ha b hb => ?_⟩
    obtain ⟨r, -, rfl⟩ := List.mem_map.1 ha
    obtain ⟨r', -, rfl⟩ := List.mem_map.1 hb
    simp [Relationship.forward, Relationship.backward]
  exact hall.sublist (List.filter_sublist.map _)

/-- So no two relations of an entity show the same view. -/
theorem shown_unique {s : Schema} (hends : (s.relationships.map (·.ends)).Nodup)
    (he : e ∈ s.entityModels p) {v : RelationView} {r r' : Relation} (hshown : e.Shows s v r)
    (hshown' : e.Shows s v r') : r = r' := by
  have hkeys : (((s.viewsOf e.table.name).zip e.relations).map fun pair =>
      (pair.1.relationship.ends, pair.1.inverse)).Nodup := by
    have hnodup := nodup_viewsOf hends e.table.name
    rwa [← List.map_fst_zip (shape_of_mem he).length_eq.le, List.map_map] at hnodup
  have hsame := List.inj_on_of_nodup_map hkeys hshown hshown' rfl
  exact (Prod.mk.inj hsame).2

/-- If two relationships have the same ends, so that they are told apart by nothing, an entity shows
both of them from the same end. -/
theorem exists_twins (h : c.Referential)
    (htwins : ¬ ((Schema.infer c).relationships.map (·.ends)).Nodup) (p : Profile) :
    ∃ e ∈ (Schema.infer c).entityModels p, ∃ v v' r r', e.Shows (Schema.infer c) v r ∧
      e.Shows (Schema.infer c) v' r' ∧ r ≠ r' ∧ v.inverse = v'.inverse ∧
      v.relationship.ends = v'.relationship.ends := by
  -- they stand in the list one behind the other
  obtain ⟨ends, htwice⟩ := not_forall.1 (mt List.nodup_iff_sublist.2 htwins)
  obtain ⟨pair, hsublist, hpair⟩ := List.sublist_map_iff.1 (not_not.1 htwice)
  obtain ⟨rel, rel', rfl⟩ :=
    List.length_eq_two.1 (by simpa using (congrArg List.length hpair).symm)
  have hends : rel.ends = rel'.ends := by
    simp only [List.map_cons, List.map_nil, List.cons.injEq, and_true] at hpair
    exact hpair.1.symm.trans hpair.2
  -- only foreign keys of an entity make such relationships
  have hvia := via_of_twins h hsublist hends
  obtain ⟨t, ht, hfrom⟩ := comesFrom_of_mem h (hsublist.subset (by simp) : rel ∈ _)
  cases hfrom with
  | junction hjunction hlinks =>
    rw [hlinks.via] at hvia
    cases hvia
  | entity hkind hfk htarget howner hend _ =>
    have hnear := (Relationship.ends_eq_iff.1 hends).1
    have howner' : rel'.owner = t.name := (hnear false).1.symm.trans howner
    have hend' : rel'.target = rel.target := (hnear true).1.symm
    have hviews : [rel.forward, rel'.forward].Sublist ((Schema.infer c).viewsOf t.name) := by
      have howned := hsublist.filter (·.owner == t.name)
      rw [List.filter_eq_self.2 (by simp [howner, howner'])] at howned
      have hviews := ((howned.map (·.forward)).trans (List.sublist_append_left _
        ((Schema.infer c).incoming t.name))).filter fun v => !(Schema.infer c).isJunction v.other
      rwa [List.filter_eq_self.2 (by simp [Relationship.forward, hend', hend, htarget])] at hviews
    have he := build_mem h p ht hkind
    obtain ⟨r, r', hshown, hshown', hne⟩ := exists_shown_pair he hviews
    exact ⟨_, he, _, _, r, r', hshown, hshown', hne, rfl, hends⟩

-- ---------------------------------------------------------------------------
-- Counterparts of counterparts
-- ---------------------------------------------------------------------------

/-- A relation and its counterpart show one relationship from both ends, and each is the counterpart
of the other. -/
structure Blueprint.Pairs (b : Blueprint) (e : Entity) (v : RelationView) (r : Relation)
    (other : Entity) (r' : Relation) : Prop where
  entity : b.entity? r.targetTable = some other
  shows  : other.Shows b.schema (v.relationship.seen (!v.inverse)) r'
  forth  : b.counterpart? e r = some r'
  back   : b.counterpart? other r' = some r

/-- Where no two relationships have the same ends, relations and their counterparts pair up. -/
theorem pairs_of_nodup (h : c.Referential)
    (hends : ((Schema.infer c).relationships.map (·.ends)).Nodup)
    (he : e ∈ (Schema.infer c).entityModels p) {v : RelationView} {r : Relation}
    (hshown : e.Shows (Schema.infer c) v r) :
    ∃ other r', (Blueprint.ofSchema (Schema.infer c) p toggles project).Pairs e v r other r' := by
  obtain ⟨hrel, hv, hnear, -⟩ := hshown.relationship
  -- the first relationship with these ends is the only one
  obtain ⟨other, hother, r', hentity, hshown', hforth⟩ :=
    counterpart?_of_shown h toggles project he hshown
      (find?_key hends hrel)
  refine ⟨other, r', hentity, hshown', hforth, ?_⟩
  obtain ⟨e', he', r'', hentity', hshown'', hback⟩ :=
    counterpart?_of_shown h toggles project hother hshown'
      (find?_key hends (by simpa using hrel))
  -- from the other end the same view is found again
  have hsame : e' = e := by
    have htable : r'.targetTable = e.table.name := by
      rw [hshown'.eq hother, RelationView.relation_targetTable, Relationship.seen_other,
        Bool.not_not, hnear]
    rw [htable, entity?_of_mem h he] at hentity'
    exact (Option.some_inj.1 hentity').symm
  subst hsame
  rw [Relationship.seen_relationship, Relationship.seen_inverse, Bool.not_not, ← hv] at hshown''
  rw [hback, shown_unique hends he hshown'' hshown]

/-- Relations that show relationships with the same ends from one end share their counterpart. -/
theorem counterpart?_congr (b : Blueprint) {s : Schema} (he : e ∈ s.entityModels p)
    {v v' : RelationView} {r r' : Relation} (hshown : e.Shows s v r) (hshown' : e.Shows s v' r')
    (hinverse : v.inverse = v'.inverse) (hends : v.relationship.ends = v'.relationship.ends) :
    r.targetTable = r'.targetTable ∧ b.counterpart? e r = b.counterpart? e r' := by
  obtain ⟨-, hv, -⟩ := hshown.relationship
  obtain ⟨-, hv', -⟩ := hshown'.relationship
  obtain ⟨hsame, hvia⟩ := Relationship.ends_eq_iff.1 hends
  rw [hshown.eq he, hshown'.eq he, hv, hv', hinverse]
  simp [Blueprint.counterpart?, hsame, hvia]

/-- Where each relation is the counterpart of its counterpart, no two relationships have the same
ends. -/
theorem nodup_of_back (h : c.Referential) (p : Profile) (toggles : FeatureToggles)
    (project : String)
    (hback : let b := Blueprint.ofSchema (Schema.infer c) p toggles project
      ∀ e ∈ b.entities, ∀ r ∈ e.relations, ∃ other r', b.entity? r.targetTable = some other ∧
        b.counterpart? e r = some r' ∧ b.counterpart? other r' = some r) :
    ((Schema.infer c).relationships.map (·.ends)).Nodup := by
  by_contra htwins
  -- two relations of one entity would both be what their shared counterpart leads back to
  obtain ⟨e, he, v, v', r, r', hshown, hshown', hne, hinverse, hends⟩ := exists_twins h htwins p
  obtain ⟨htable, hshared⟩ := counterpart?_congr
    (.ofSchema (Schema.infer c) p toggles project) he hshown hshown' hinverse hends
  obtain ⟨other, r₁, hother, hforth, hback₁⟩ := hback e he r hshown.mem.2
  obtain ⟨other', r₂, hother', hforth', hback₂⟩ := hback e he r' hshown'.mem.2
  rw [htable, hother', Option.some_inj] at hother
  rw [hshared, hforth', Option.some_inj] at hforth
  subst hother hforth
  exact hne (Option.some_inj.1 (hback₁.symm.trans hback₂))

/-- **Counterparts.** In the blueprint of a script, for any target, every relation has a
counterpart, which shows from the other entity the first relationship that has the same ends. This
is the relationship that the relation itself shows, and the counterpart leads back to it, for all
relations exactly if no two relationships have the same ends. -/
theorem counterparts_pair_up (script : String) (dialect : Dialect) (p : Profile)
    (toggles : FeatureToggles) (project : String) :
    let s := Schema.infer (Extraction.ofScript script dialect).catalog
    let b := Blueprint.ofSchema s p toggles project
    (∀ e ∈ b.entities, ∀ r ∈ e.relations, ∃ v, e.Shows s v r) ∧
    (∀ e ∈ b.entities, ∀ v r, e.Shows s v r → ∃ first,
      s.relationships.find? (·.ends == v.relationship.ends) = some first ∧
      ∃ other ∈ b.entities, ∃ r', b.entity? r.targetTable = some other ∧
        other.Shows s (first.seen (!v.inverse)) r' ∧ b.counterpart? e r = some r') ∧
    ((∀ e ∈ b.entities, ∀ v r, e.Shows s v r → ∃ other r', b.Pairs e v r other r') ↔
      (s.relationships.map (·.ends)).Nodup) := by
  have h : (Extraction.ofScript script dialect).catalog.Referential :=
    referential_ofStatements (dialect.resolve script) (originsOf script)
  -- every relation has a first one with its ends; all are first iff no two have the same ends
  refine ⟨fun e he r hr => shown_of_mem he hr, fun e he v r hshown => ?_, fun hpairs => ?_,
    fun hends e he v r hshown => pairs_of_nodup h hends he hshown⟩
  · cases hfirst : (Schema.infer (Extraction.ofScript script dialect).catalog).relationships.find?
        (·.ends == v.relationship.ends) with
    | none =>
      have hnone := List.find?_eq_none.1 hfirst _ hshown.relationship.1
      simp at hnone
    | some first => exact ⟨first, rfl, counterpart?_of_shown h toggles project he hshown hfirst⟩
  · refine nodup_of_back h p toggles project fun e he r hr => ?_
    obtain ⟨v, hshown⟩ := shown_of_mem he hr
    obtain ⟨other, r', hpair⟩ := hpairs e he v r hshown
    exact ⟨other, r', hpair.entity, hpair.forth, hpair.back⟩

/-- A foreign key that is declared twice makes two relations which share their counterpart. -/
theorem counterparts_shared :
    ¬ ∀ (script : String) (dialect : Dialect) (p : Profile) (toggles : FeatureToggles)
      (project : String),
      let s := Schema.infer (Extraction.ofScript script dialect).catalog
      let b := Blueprint.ofSchema s p toggles project
      ∀ e ∈ b.entities, ∀ r ∈ e.relations, ∃ other r', b.entity? r.targetTable = some other ∧
        b.counterpart? e r = some r' ∧ b.counterpart? other r' = some r := by
  intro h
  -- `x` refers to `b` twice
  have hback := h ("CREATE TABLE b (i INT PRIMARY KEY); " ++
    "CREATE TABLE a (x INT REFERENCES b(i), FOREIGN KEY (x) REFERENCES b(i))") .generic
    BuiltIn.gin {} "app"
  have hreferential (script : String) : (Extraction.ofScript script .generic).catalog.Referential :=
    referential_ofStatements _ _
  have hnodup := nodup_of_back (hreferential _) _ _ _ hback
  rw [Extraction.ofScript_of_toList
    (toList_append_of String.toList_ofList String.toList_ofList)] at hnodup
  revert hnodup
  decide +kernel

-- ---------------------------------------------------------------------------
-- Where relations lead
-- ---------------------------------------------------------------------------

/-- The entity at the other end of a relation: the only one of its table. The names of the relation
are those that the table is assigned. -/
structure Blueprint.LeadsTo (b : Blueprint) (r : Relation) (other : Entity) : Prop where
  only     : b.entities.filter (·.table.name == r.targetTable) = [other]
  assigned : (NameTable.assign b.schema b.profile).get? r.targetTable = some other.names
  entity   : r.targetEntity = other.names.entity
  file     : r.targetFile = other.names.file

theorem Blueprint.LeadsTo.mem {b : Blueprint} {r : Relation} {other : Entity}
    (h : b.LeadsTo r other) : other ∈ b.entities ∧ other.table.name = r.targetTable := by
  have hmem := h.only ▸ List.mem_singleton_self other
  rw [List.mem_filter] at hmem
  exact ⟨hmem.1, by simpa using hmem.2⟩

/-- A relation leads to the entity of the table that it shows. -/
theorem leadsTo_of_shown (h : c.Referential) {v : RelationView} {r : Relation}
    (he : e ∈ (Schema.infer c).entityModels p) (hshown : e.Shows (Schema.infer c) v r) :
    ∃ other, (Blueprint.ofSchema (Schema.infer c) p toggles project).LeadsTo r other := by
  obtain ⟨other, hother, hname⟩ := exists_other h p hshown
  have hassigned := get?_names hother
  have htarget : r.targetTable = other.table.name := by
    rw [hshown.eq he, RelationView.relation_targetTable, hname]
  -- the names of the table were looked up, not made anew
  have hresolve : (NameTable.assign (Schema.infer c) p).resolve p v.other = other.names := by
    rw [NameTable.resolve, ← hname, hassigned]
    rfl
  refine ⟨other, ?_, htarget ▸ hassigned, ?_, ?_⟩
  · rw [htarget]
    exact filter_key (nodup_tables h p) hother
  · rw [hshown.eq he]
    exact congrArg EntityNames.entity hresolve
  · rw [hshown.eq he]
    exact congrArg EntityNames.file hresolve

/-- Two entities of one name are one. -/
theorem eq_of_entity_name (h : c.Referential) {other : Entity}
    (he : e ∈ (Schema.infer c).entityModels p) (hother : other ∈ (Schema.infer c).entityModels p)
    (hname : other.names.entity = e.names.entity) : other = e := by
  have : Std.Symm fun x y : Entity => x.names.Apart y.names := ⟨fun _ _ h => h.symm⟩
  by_contra hne
  exact ((pairwise_names h p).forall hother he hne).entity hname

theorem mem_neighbours_iff {pair : String × String} : pair ∈ e.neighbours ↔
    ∃ r ∈ e.relations, r.targetEntity ≠ e.names.entity ∧ pair = (r.targetFile, r.targetEntity) := by
  rw [Entity.neighbours, List.mem_eraseDups, List.mem_mergeSort, List.mem_map]
  simp only [List.mem_filter, bne_iff_ne, and_assoc, eq_comm (a := pair)]

/-- **References.** In the blueprint of a script, for any target, every relation leads to exactly
one entity, under the names that this entity is assigned. What is imported for the relations of an
entity is, once each, the name and the module of the other entities that they lead to; and if an
emitter comes out, all files that it gives for these entities are there. -/
theorem relations_lead_to_entities (script : String) (dialect : Dialect) (p : Profile)
    (toggles : FeatureToggles) (project : String) :
    let s := Schema.infer (Extraction.ofScript script dialect).catalog
    let b := Blueprint.ofSchema s p toggles project
    (∀ e ∈ b.entities, ∀ r ∈ e.relations, ∃ other, b.LeadsTo r other) ∧
    (∀ e ∈ b.entities, ∀ pair, pair ∈ e.neighbours ↔ ∃ r ∈ e.relations, ∃ other,
      b.LeadsTo r other ∧ other ≠ e ∧ pair = (other.names.file, other.names.entity)) ∧
    (∀ e ∈ b.entities, e.neighbours.Nodup) ∧
    ∀ (emitter : Emitter) (set : FileSet), emitter.run b = .ok set → ∀ e ∈ b.entities,
      ∃ files, emitter.entityFiles b e = .ok files ∧ ∀ f ∈ files, f ∈ set.files := by
  intro s b
  have h : (Extraction.ofScript script dialect).catalog.Referential :=
    referential_ofStatements (dialect.resolve script) (originsOf script)
  have hleads : ∀ e ∈ b.entities, ∀ r ∈ e.relations, ∃ other, b.LeadsTo r other := by
    intro e he r hr
    obtain ⟨v, hshown⟩ := shown_of_mem he hr
    exact leadsTo_of_shown h he hshown
  -- what every relation leads to gives the rest: neighbours are these entities, once each
  refine ⟨hleads, fun e he pair => ?_, fun e _ => ?_, fun emitter set hrun e he =>
    emitted_of_run hrun he⟩
  · rw [mem_neighbours_iff]
    constructor
    · rintro ⟨r, hr, hname, rfl⟩
      obtain ⟨other, hother⟩ := hleads e he r hr
      refine ⟨r, hr, other, hother, ?_, by rw [hother.entity, hother.file]⟩
      -- an entity is no neighbour of itself, and its name is no other's
      rintro rfl
      exact hname hother.entity
    · rintro ⟨r, hr, other, hother, hne, rfl⟩
      refine ⟨r, hr, fun hname => hne ?_, by rw [hother.entity, hother.file]⟩
      exact eq_of_entity_name h he hother.mem.1 (hother.entity.symm.trans hname)
  · exact nodup_eraseDups _

end CrudGen
