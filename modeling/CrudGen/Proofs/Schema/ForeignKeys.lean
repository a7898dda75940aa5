import CrudGen.Proofs.Catalog.Fate
import CrudGen.Proofs.Data.Keyed
import CrudGen.Proofs.Schema.Kinds

/-!
# Schemas — what becomes of a foreign key

Every relationship and every report of a schema has a home, the table whose foreign keys yield it.
An entity yields one of them for each of its foreign keys (`OutcomeOf`). A junction yields one
relationship, from its first foreign key to each of its two targets (`LinksTargets`); a further
foreign key to a target that is linked already yields nothing.

Main result:

* `foreignKeys_accounted` — every reference that a script asks for is reported, or stored once and
  then accounted for by its table.
-/

namespace CrudGen

open Sql (Dialect)

-- ---------------------------------------------------------------------------
-- Homes
-- ---------------------------------------------------------------------------

/-- The table whose foreign keys yield a relationship: the junction, or else the owner. -/
def Relationship.home (r : Relationship) : String :=
  r.via.getD r.owner

/-- The table whose foreign keys yield an outcome. -/
def Outcome.home : Outcome → String
  | .related r => r.home
  | .dangling u => u.table

theorem home_of_mem_outcomes {t : Table} {isJunction : String → Bool} {o : Outcome}
    (h : o ∈ t.outcomes isJunction) : o.home = t.name := by
  unfold Table.outcomes at h
  split at h
  · unfold Table.junctionOutcomes at h
    split at h
    · rw [List.mem_singleton.1 h]
      rfl
    · cases h
  · obtain ⟨fk, -, rfl⟩ := List.mem_map.1 h
    unfold Table.foreignKeyOutcome
    split <;> rfl

/-- The outcomes at home in a table are those that its foreign keys yield. -/
theorem filter_home_flatMap {tables : List Table} (hnodup : (tables.map (·.name)).Nodup)
    {t : Table} (ht : t ∈ tables) (isJunction : String → Bool) :
    (tables.flatMap fun u => u.outcomes isJunction).filter (·.home == t.name) =
      t.outcomes isJunction :=
  filter_flatMap_key hnodup (fun _ _ _ => home_of_mem_outcomes) ht

theorem filter_related (outcomes : List Outcome) (name : String) :
    (outcomes.filterMap (·.related?)).filter (·.home == name) =
      (outcomes.filter (·.home == name)).filterMap (·.related?) := by
  rw [List.filter_filterMap, List.filterMap_filter]
  refine List.filterMap_congr fun o _ => ?_
  cases o with
  | related r => by_cases hhome : r.home = name <;> simp [Outcome.related?, Outcome.home, hhome]
  | dangling u => simp [Outcome.related?]

theorem filter_dangling (outcomes : List Outcome) (name : String) :
    (outcomes.filterMap (·.dangling?)).filter (·.table == name) =
      (outcomes.filter (·.home == name)).filterMap (·.dangling?) := by
  rw [List.filter_filterMap, List.filterMap_filter]
  refine List.filterMap_congr fun o _ => ?_
  cases o with
  | related r => simp [Outcome.dangling?]
  | dangling u =>
    by_cases htable : u.table = name <;> simp [Outcome.dangling?, Outcome.home, htable]

-- ---------------------------------------------------------------------------
-- The targets of a junction
-- ---------------------------------------------------------------------------

/-- Foreign keys with a first one to each target, and one more foreign key. -/
def addTarget (seen : List ForeignKey) (fk : ForeignKey) : List ForeignKey :=
  if seen.any (·.targetTable == fk.targetTable) then seen else seen ++ [fk]

theorem distinctTargets_eq (t : Table) : t.distinctTargets = t.foreignKeys.foldl addTarget [] :=
  rfl

theorem addTarget_cases (seen : List ForeignKey) (fk : ForeignKey) :
    ((∃ other ∈ seen, other.targetTable = fk.targetTable) ∧ addTarget seen fk = seen) ∨
      ((∀ other ∈ seen, other.targetTable ≠ fk.targetTable) ∧
        addTarget seen fk = seen ++ [fk]) := by
  unfold addTarget
  split
  · rename_i hseen
    obtain ⟨other, hother, heq⟩ := List.any_eq_true.1 hseen
    exact .inl ⟨⟨other, hother, by simpa using heq⟩, rfl⟩
  · rename_i hnew
    exact .inr ⟨by simpa using hnew, rfl⟩

theorem prefix_foldl_addTarget (fks seen : List ForeignKey) :
    seen <+: fks.foldl addTarget seen := by
  induction fks generalizing seen with
  | nil => exact List.prefix_rfl
  | cons fk rest ih =>
    rw [List.foldl_cons]
    rcases addTarget_cases seen fk with ⟨-, heq⟩ | ⟨-, heq⟩
    · rw [heq]
      exact ih seen
    · rw [heq]
      exact (List.prefix_append seen [fk]).trans (ih _)

/-- When no target is new, every foreign key goes to one that is seen. -/
theorem target_of_foldl_addTarget {fks seen : List ForeignKey}
    (h : fks.foldl addTarget seen = seen) :
    ∀ fk ∈ fks, ∃ other ∈ seen, other.targetTable = fk.targetTable := by
  induction fks with
  | nil => simp
  | cons fk rest ih =>
    rw [List.foldl_cons] at h
    rcases addTarget_cases seen fk with ⟨hseen, heq⟩ | ⟨-, heq⟩
    · rw [heq] at h
      exact List.forall_mem_cons.2 ⟨hseen, ih h⟩
    · -- a new target would stay among those seen
      have hlength := (prefix_foldl_addTarget rest (seen ++ [fk])).length_le
      rw [← heq, h, heq, List.length_append, List.length_singleton] at hlength
      omega

/-- Up to the first foreign key to a second target all go to the first one. -/
theorem split_of_foldl_addTarget {fks : List ForeignKey} {first second : ForeignKey}
    (h : fks.foldl addTarget [first] = [first, second]) :
    ∃ same later, fks = same ++ second :: later ∧
      (∀ fk ∈ same, fk.targetTable = first.targetTable) ∧
      second.targetTable ≠ first.targetTable ∧
      ∀ fk ∈ later, fk.targetTable = first.targetTable ∨ fk.targetTable = second.targetTable := by
  -- induction on the foreign keys up to the first one with a new target
  induction fks with
  | nil => cases h
  | cons fk rest ih =>
    rw [List.foldl_cons] at h
    rcases addTarget_cases [first] fk with ⟨hseen, heq⟩ | ⟨hnew, heq⟩
    · rw [heq] at h
      obtain ⟨same, later, rfl, hsame, hne, hlater⟩ := ih h
      obtain ⟨other, hother, htarget⟩ := hseen
      rw [List.mem_singleton.1 hother] at htarget
      exact ⟨fk :: same, later, rfl, List.forall_mem_cons.2 ⟨htarget.symm, hsame⟩, hne, hlater⟩
    · rw [heq] at h
      obtain ⟨more, hmore⟩ := prefix_foldl_addTarget rest ([first] ++ [fk])
      -- the second target is this one, so no later one is new
      obtain ⟨rfl, -⟩ : fk = second ∧ more = [] := by
        rw [h] at hmore
        simpa using hmore
      refine ⟨[], rest, rfl, by simp, ?_, fun other hother => ?_⟩
      · exact fun heq => hnew first List.mem_cons_self heq.symm
      · obtain ⟨seen, hseen, htarget⟩ := target_of_foldl_addTarget h other hother
        rcases List.mem_append.1 hseen with hfirst | hfk
        · exact .inl (List.mem_singleton.1 hfirst ▸ htarget.symm)
        · exact .inr (List.mem_singleton.1 hfk ▸ htarget.symm)

-- ---------------------------------------------------------------------------
-- What foreign keys yield
-- ---------------------------------------------------------------------------

/-- What a foreign key of an entity yields: a relationship of its own, or a report. -/
inductive OutcomeOf (t : Table) (fk : ForeignKey) : Outcome → Prop
  | related {r} (hkind : r.kind = .manyToOne ∨ r.kind = .oneToOne) (howner : r.owner = t.name)
      (htarget : r.target = fk.targetTable) (hcolumns : r.columns = fk.columns)
      (htargetColumns : r.targetColumns = fk.targetColumns) (hvia : r.via = none) :
      OutcomeOf t fk (.related r)
  | dangling {u} (htable : u.table = t.name) (hcolumns : u.columns = fk.columns)
      (htarget : u.target = fk.targetTable) : OutcomeOf t fk (.dangling u)

theorem outcomeOf_foreignKeyOutcome (t : Table) (isJunction : String → Bool) (fk : ForeignKey) :
    OutcomeOf t fk (t.foreignKeyOutcome isJunction fk) := by
  unfold Table.foreignKeyOutcome
  split
  · exact .dangling rfl rfl rfl
  · refine .related ?_ rfl rfl rfl rfl rfl
    dsimp only
    split
    · exact .inr rfl
    · exact .inl rfl

/-- The relationship of a junction has the columns of the first foreign key to each of two targets.
Every other foreign key goes to one of the two as well. -/
structure LinksTargets (t : Table) (r : Relationship) : Prop where
  kind : r.kind = .manyToMany
  via  : r.via = some t.name
  keys : ∃ first same second later, t.foreignKeys = first :: (same ++ second :: later) ∧
           (∀ fk ∈ same, fk.targetTable = first.targetTable) ∧
           second.targetTable ≠ first.targetTable ∧
           (∀ fk ∈ later,
             fk.targetTable = first.targetTable ∨ fk.targetTable = second.targetTable) ∧
           r.owner = first.targetTable ∧ r.columns = first.columns ∧
           r.target = second.targetTable ∧ r.targetColumns = second.columns

theorem junctionOutcomes_eq {t : Table} (h : t.isJunction = true) :
    ∃ r, t.junctionOutcomes = [.related r] ∧ LinksTargets t r := by
  have htwo : t.distinctTargets.length = 2 := by
    simp only [Table.isJunction, Bool.and_eq_true, beq_iff_eq] at h
    exact h.1.1.2
  obtain ⟨first, second, htargets⟩ := List.length_eq_two.1 htwo
  refine ⟨_, by rw [Table.junctionOutcomes, htargets], rfl, rfl, ?_⟩
  rw [distinctTargets_eq] at htargets
  cases hfks : t.foreignKeys with
  | nil =>
    rw [hfks] at htargets
    cases htargets
  | cons fk rest =>
    rw [hfks, List.foldl_cons] at htargets
    -- the first foreign key of the table goes to the first target
    have hfirst : addTarget [] fk = [fk] := rfl
    rw [hfirst] at htargets
    obtain ⟨more, hmore⟩ := prefix_foldl_addTarget rest [fk]
    obtain ⟨rfl, -⟩ : fk = first ∧ more = [second] := by
      rw [htargets] at hmore
      simpa using hmore
    obtain ⟨same, later, rfl, hsame, hne, hlater⟩ := split_of_foldl_addTarget htargets
    exact ⟨fk, same, second, later, rfl, hsame, hne, hlater, rfl, rfl, rfl, rfl⟩

/-- The relationships and the reports at home in a table are what its foreign keys yield. -/
inductive AccountedFor (s : Schema) (t : Table) : Prop
  | entity (outcomes : List Outcome) (hkind : t.kind = .entity)
      (heach : List.Forall₂ (OutcomeOf t) t.foreignKeys outcomes)
      (hrelationships : s.relationships.filter (·.home == t.name) =
        outcomes.filterMap (·.related?))
      (hunresolved : s.unresolved.filter (·.table == t.name) = outcomes.filterMap (·.dangling?))
  | junction (r : Relationship) (hkind : t.kind = .junction) (hlinks : LinksTargets t r)
      (hrelationships : s.relationships.filter (·.home == t.name) = [r])
      (hunresolved : s.unresolved.filter (·.table == t.name) = [])

theorem accountedFor_infer {c : Catalog} (hnodup : (c.tables.map (·.name)).Nodup) {t : Table}
    (ht : t ∈ c.tables) : AccountedFor (Schema.infer c) t := by
  let isJunction (name : String) : Bool := c.tables.any fun u => u.name == name && u.isJunction
  -- outcomes of other tables have another home
  have hhome : (outcomesOf c.tables).filter (·.home == t.name) = t.outcomes isJunction :=
    filter_home_flatMap hnodup ht isJunction
  have hrelationships : (Schema.infer c).relationships.filter (·.home == t.name) =
      (t.outcomes isJunction).filterMap (·.related?) := by
    rw [← hhome]
    exact filter_related _ _
  have hunresolved : (Schema.infer c).unresolved.filter (·.table == t.name) =
      (t.outcomes isJunction).filterMap (·.dangling?) := by
    rw [← hhome]
    exact filter_dangling _ _
  cases hkind : t.kind with
  | entity =>
    refine .entity (t.outcomes isJunction) hkind ?_ hrelationships hunresolved
    rw [Table.outcomes, hkind, List.forall₂_map_right_iff]
    exact List.forall₂_same.2 fun fk _ => outcomeOf_foreignKeyOutcome t isJunction fk
  -- a junction makes one relationship and leaves the other foreign keys unsaid
  | junction =>
    obtain ⟨r, hr, hlinks⟩ := junctionOutcomes_eq (kind_eq_junction_iff.1 hkind)
    have houtcomes : t.outcomes isJunction = [.related r] := by
      rw [Table.outcomes, hkind, hr]
    rw [houtcomes] at hrelationships hunresolved
    exact .junction r hkind hlinks hrelationships hunresolved

/-- **Accounts.** Every reference that a script asks for is reported once or stored once in its own
table. Every foreign key of an entity yields one relationship or one report; a junction yields one
relationship, of the first foreign key to each of its two targets. -/
theorem foreignKeys_accounted (script : String) (dialect : Dialect) :
    let x := Extraction.ofScript script dialect
    (∃ fates, x.Settles (acceptedReferences (dialect.resolve script) (originsOf script)) fates) ∧
      ∀ t ∈ x.catalog.tables, AccountedFor (Schema.infer x.catalog) t :=
  ⟨settles_ofStatements _ _, fun _ ht =>
    accountedFor_infer (referential_ofStatements _ _).distinct.nodup ht⟩

/-- A further foreign key of a junction to a target that is linked already is not accounted for. -/
theorem foreignKey_of_linked_target_lost :
    ¬ ∀ (script : String) (dialect : Dialect),
      let x := Extraction.ofScript script dialect
      let s := Schema.infer x.catalog
      ∀ t ∈ x.catalog.tables, ∀ fk ∈ t.foreignKeys,
        (∃ r ∈ s.relationships, r.owner = t.name ∧ r.via = none ∧ r.columns = fk.columns) ∨
        (∃ u ∈ s.unresolved, u.table = t.name ∧ u.columns = fk.columns) ∨
        ∃ r ∈ s.relationships, r.via = some t.name ∧
          (r.columns = fk.columns ∨ r.targetColumns = fk.columns) := by
  intro h
  -- `x` and `y` both refer to `a`, and the relationship of `ab` has `x` and `z`
  have hscript := h ("CREATE TABLE a(i INT PRIMARY KEY); CREATE TABLE b(i INT PRIMARY KEY); " ++
    "CREATE TABLE ab(x INT REFERENCES a, y INT REFERENCES a, z INT REFERENCES b, " ++
    "PRIMARY KEY(x, y, z))") .generic
  rw [Extraction.ofScript_of_toList (toList_append_of
    (toList_append_of String.toList_ofList String.toList_ofList) String.toList_ofList)] at hscript
  revert hscript
  decide +kernel

end CrudGen
