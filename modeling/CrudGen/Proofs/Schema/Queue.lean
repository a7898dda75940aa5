import Mathlib.Data.List.Nodup
import Mathlib.Order.Fin.Basic
import Mathlib.Tactic.Tauto
import CrudGen.Proofs.Data.Dict
import CrudGen.Proofs.Graph.Reach
import CrudGen.Schema.Order

/-!
# Schemas — draining a queue

A queue holds vertices that wait for others. `Queue.Counts` says that its counts and its ready
vertices are those that the vertices already gone leave. Releasing what waits for a departing vertex
keeps it, so no count is ever taken below zero, and `drain?` puts out a `Greedy` order: each vertex
comes after those it waits for, and is the least in rank of all that could come next.
-/

namespace CrudGen

variable {k : Nat}

-- ---------------------------------------------------------------------------
-- Greedy orders
-- ---------------------------------------------------------------------------

/-- `order` goes on from the vertices `gone`: it always takes, of the vertices that wait for nothing
but vertices gone before, the one of the least rank, and it ends when there is none left. -/
def Greedy (waits : Graph k) (rank : Fin k → Nat) (gone : List (Fin k)) : List (Fin k) → Prop
  | [] => ∀ x, x ∈ gone
  | c :: rest =>
    c ∉ gone ∧ (∀ b ∈ waits.successors c, b ∈ gone) ∧
      (∀ x, x ∉ gone → (∀ b ∈ waits.successors x, b ∈ gone) → rank c ≤ rank x) ∧
      Greedy waits rank (gone ++ [c]) rest

namespace Greedy

variable {waits : Graph k} {rank : Fin k → Nat}

theorem nodup {gone order : List (Fin k)} (h : Greedy waits rank gone order) (hgone : gone.Nodup) :
    (gone ++ order).Nodup := by
  induction order generalizing gone with
  | nil => simpa using hgone
  | cons c rest ih =>
    have hrest := ih h.2.2.2 (List.nodup_append.2 ⟨hgone, by simp, by
      intro x hx y hy hxy
      exact h.1 (List.mem_singleton.1 hy ▸ hxy ▸ hx)⟩)
    simpa using hrest

theorem mem {gone order : List (Fin k)} (h : Greedy waits rank gone order) (x : Fin k) :
    x ∈ gone ++ order := by
  induction order generalizing gone with
  | nil => simpa using h x
  | cons c rest ih => simpa using ih h.2.2.2

/-- A vertex comes after those it waits for. -/
theorem waits_before {gone order : List (Fin k)} (h : Greedy waits rank gone order)
    {before after : List (Fin k)} {c : Fin k} (hcut : order = before ++ c :: after) :
    ∀ b ∈ waits.successors c, b ∈ gone ++ before := by
  induction order generalizing gone before with
  | nil => simp at hcut
  | cons d rest ih =>
    cases before with
    | nil =>
      obtain ⟨rfl, -⟩ : d = c ∧ rest = after := by simpa using hcut
      simpa using h.2.1
    | cons e before =>
      obtain ⟨rfl, hrest⟩ : d = e ∧ rest = before ++ c :: after := by simpa using hcut
      simpa using ih h.2.2.2 hrest

/-- A greedy order from the start has every vertex once. -/
theorem perm {order : List (Fin k)} (h : Greedy waits rank [] order) :
    order.Perm (List.finRange k) :=
  (List.perm_ext_iff_of_nodup (h.nodup List.nodup_nil) (List.nodup_finRange k)).2 fun x =>
    ⟨fun _ => List.mem_finRange x, fun _ => h.mem x⟩

end Greedy

namespace Queue

variable {waits : Graph k} {rank : Fin k → Nat}

-- ---------------------------------------------------------------------------
-- Counts and releases
-- ---------------------------------------------------------------------------

/-- What `x` still waits for once `gone` are gone. -/
def awaited (waits : Graph k) (gone : List (Fin k)) (x : Fin k) : Nat :=
  (waits.successors x).countP fun b => b ∉ gone

theorem awaited_eq_zero {gone : List (Fin k)} {x : Fin k} :
    awaited waits gone x = 0 ↔ ∀ b ∈ waits.successors x, b ∈ gone := by
  simp [awaited, List.countP_eq_zero]

/-- One vertex gone is one less to wait for, for those that wait for it. -/
theorem awaited_concat {gone : List (Fin k)} {c x : Fin k} (hnodup : (waits.successors x).Nodup)
    (hc : c ∉ gone) :
    awaited waits gone x =
      awaited waits (gone ++ [c]) x + if c ∈ waits.successors x then 1 else 0 := by
  unfold awaited
  -- by induction on what is waited for, where `c` is met once at most
  generalize waits.successors x = bs at hnodup ⊢
  induction bs with
  | nil => simp
  | cons b rest ih =>
    rw [List.nodup_cons] at hnodup
    rw [List.countP_cons, List.countP_cons, ih hnodup.2]
    by_cases hbc : b = c
    · subst hbc
      simp [hnodup.1, hc]
    · have hcb : c ≠ b := fun h => hbc h.symm
      by_cases hb : b ∈ gone
      · simp [hb, hcb]
      · have hstay : b ∉ gone ++ [c] := by simp [hb, hbc]
        simp only [hb, hstay, hcb, List.mem_cons, false_or, not_false_eq_true, decide_true, if_true]
        omega

/-- Nothing is left to wait for once `c` is gone: there was nothing before, or `c` was the last. -/
theorem awaited_concat_eq_zero {gone : List (Fin k)} {c x : Fin k}
    (hnodup : (waits.successors x).Nodup) (hc : c ∉ gone) :
    awaited waits (gone ++ [c]) x = 0 ↔
      awaited waits gone x = 0 ∧ c ∉ waits.successors x ∨
        awaited waits gone x = 1 ∧ c ∈ waits.successors x := by
  rw [awaited_concat hnodup hc]
  by_cases hcx : c ∈ waits.successors x
  · simp [hcx]
  · simp [hcx]

/-- The counts and the ready vertices of a queue that `gone` have left. -/
structure Counts (waits : Graph k) (rank : Fin k → Nat) (q : Queue k) (gone : List (Fin k)) :
    Prop where
  closed    : ∀ x ∈ gone, ∀ b ∈ waits.successors x, b ∈ gone
  remaining : ∀ x : Fin k, entry q.remaining x = awaited waits gone x
  sorted    : q.ready.Sorted
  mem_ready : ∀ p, p ∈ q.ready ↔ ∃ x, p = (rank x, x) ∧ x ∉ gone ∧ entry q.remaining x = 0

/-- The release of a vertex that waits for something has a result: its count is one less, and if it
was one, the vertex is ready. -/
theorem release?_spec (hrank : rank.Injective) {q : Queue k} {c : Fin k}
    (hsorted : q.ready.Sorted) (hpos : 0 < entry q.remaining c)
    (hready : ∀ p ∈ q.ready, p.1 = rank p.2 ∧ p.2 ≠ c) :
    ∃ q', q.release? rank c = some q' ∧ q'.ready.Sorted ∧
      (∀ x : Fin k, entry q'.remaining x = entry q.remaining x - if x = c then 1 else 0) ∧
      ∀ p, p ∈ q'.ready ↔ p ∈ q.ready ∨ p = (rank c, c) ∧ entry q.remaining c = 1 := by
  obtain ⟨r, hr⟩ : ∃ r, entry q.remaining c = r + 1 :=
    Nat.exists_eq_succ_of_ne_zero (Nat.pos_iff_ne_zero.1 hpos)
  -- the key of `c` is not in use: the ready vertices are others, and ranks are injective
  have hfresh : ∀ p ∈ q.ready, p.1 ≠ rank c := fun p hp hpc =>
    (hready p hp).2 (hrank ((hready p hp).1.symm.trans hpc))
  refine ⟨_, by rw [release?, hr], ?_, fun x => ?_, fun p => ?_⟩
  · dsimp only
    split
    · exact Dict.sorted_insert hsorted _ _
    · exact hsorted
  · rw [Graph.entry_set]
    by_cases hx : x = c
    · subst hx
      simp [hr]
    · simp [hx]
  · dsimp only
    split
    · rename_i hzero
      rw [Dict.mem_insert hsorted, hr]
      have := hfresh p
      simp only [hzero, Nat.zero_add, and_true]
      tauto
    · rename_i hmore
      rw [hr]
      simp [hmore]

/-- Releasing distinct vertices that all wait for something. -/
theorem releases (hrank : rank.Injective) {cs : List (Fin k)} (hnodup : cs.Nodup) {q : Queue k}
    (hsorted : q.ready.Sorted) (hpos : ∀ c ∈ cs, 0 < entry q.remaining c)
    (hready : ∀ p ∈ q.ready, p.1 = rank p.2 ∧ p.2 ∉ cs) :
    ∃ q', cs.foldlM (release? rank) q = some q' ∧ q'.ready.Sorted ∧
      (∀ x : Fin k, entry q'.remaining x = entry q.remaining x - if x ∈ cs then 1 else 0) ∧
      ∀ p, p ∈ q'.ready ↔
        p ∈ q.ready ∨ ∃ x ∈ cs, p = (rank x, x) ∧ entry q.remaining x = 1 := by
  induction cs generalizing q with
  | nil => exact ⟨q, rfl, hsorted, by simp, by simp⟩
  | cons c rest ih =>
    rw [List.nodup_cons] at hnodup
    rw [List.forall_mem_cons] at hpos
    obtain ⟨q₁, hq₁, hsorted₁, hrem₁, hmem₁⟩ := release?_spec hrank hsorted hpos.1 fun p hp =>
      ⟨(hready p hp).1, fun hpc => (hready p hp).2 (by simp [hpc])⟩
    -- the other counts are untouched, as the vertices are distinct
    have hrest : ∀ x ∈ rest, entry q₁.remaining x = entry q.remaining x := by
      intro x hx
      have hxc : x ≠ c := fun hxc => hnodup.1 (hxc ▸ hx)
      rw [hrem₁, if_neg hxc, Nat.sub_zero]
    obtain ⟨q', hq', hsorted', hrem', hmem'⟩ := ih hnodup.2 hsorted₁
      (fun x hx => by
        rw [hrest x hx]
        exact hpos.2 x hx)
      (fun p hp => by
        rcases (hmem₁ p).1 hp with hp | ⟨rfl, -⟩
        · exact ⟨(hready p hp).1, fun hmem => (hready p hp).2 (by simp [hmem])⟩
        · exact ⟨rfl, hnodup.1⟩)
    refine ⟨q', ?_, hsorted', fun x => ?_, fun p => ?_⟩
    · rw [List.foldlM_cons, hq₁]
      exact hq'
    · rw [hrem', hrem₁]
      by_cases hx : x = c
      · subst hx
        simp [hnodup.1]
      · simp [hx]
    · rw [hmem', hmem₁]
      have hsame : (∃ x ∈ rest, p = (rank x, x) ∧ entry q₁.remaining x = 1) ↔
          ∃ x ∈ rest, p = (rank x, x) ∧ entry q.remaining x = 1 :=
        exists_congr fun x => and_congr_right fun hx => by rw [hrest x hx]
      rw [hsame]
      simp only [List.mem_cons, exists_eq_or_imp, or_assoc]

-- ---------------------------------------------------------------------------
-- The counts of a queue while it is drained
-- ---------------------------------------------------------------------------

theorem Counts.start (hrank : rank.Injective) : Counts waits rank (.start rank waits) [] := by
  have hrem : ∀ x : Fin k, entry (Queue.start rank waits).remaining x = awaited waits [] x := by
    intro x
    simp [Queue.start, awaited, Graph.successors, Graph.entry_eq_getElem]
  have hkeys : (((List.finRange k).filter fun c => (waits.successors c).isEmpty).map
      fun c => (rank c, c)).map (·.1) =
        ((List.finRange k).filter fun c => (waits.successors c).isEmpty).map rank := by
    rw [List.map_map]
    rfl
  refine ⟨by simp, hrem, Dict.sorted_ofList _, fun p => ?_⟩
  have hnodup := ((List.nodup_finRange k).filter fun c => (waits.successors c).isEmpty).map hrank
  rw [Queue.start, Dict.mem_ofList (hkeys ▸ hnodup)]
  simp only [List.mem_map, List.mem_filter, List.mem_finRange, true_and, List.isEmpty_iff]
  refine exists_congr fun x => ?_
  -- with nothing gone, a count of zero means that there is nothing to wait for
  have hzero : entry (Queue.start rank waits).remaining x = 0 ↔ waits.successors x = [] := by
    rw [hrem, awaited_eq_zero, List.eq_nil_iff_forall_not_mem]
    simp
  rw [Queue.start] at hzero
  rw [hzero]
  constructor
  · rintro ⟨hx, rfl⟩
    exact ⟨rfl, by simp, hx⟩
  · rintro ⟨rfl, -, hx⟩
    exact ⟨hx, rfl⟩

variable (hdesc : ∀ x, ∀ b ∈ waits.successors x, b < x)
  (hnodup : ∀ x, (waits.successors x).Nodup) (hrank : rank.Injective)

include hdesc in
/-- When nothing is ready, everything is gone: the least vertex left would be ready. -/
theorem Counts.all_gone {q : Queue k} {gone : List (Fin k)} (h : Counts waits rank q gone)
    (hq : q.ready = []) : ∀ x, x ∈ gone := by
  intro x
  -- along the order of the vertices: what a vertex waits for is less than it
  induction x using WellFoundedLT.induction with
  | ind x ih =>
    by_contra hx
    have hzero : entry q.remaining x = 0 := by
      rw [h.remaining, awaited_eq_zero]
      exact fun b hb => ih b (hdesc x b hb)
    have hready := (h.mem_ready (rank x, x)).2 ⟨x, rfl, hx, hzero⟩
    simp [hq] at hready

/-- The foremost ready vertex is the least in rank of those that wait for nothing any more. -/
theorem Counts.foremost {q : Queue k} {gone : List (Fin k)} (h : Counts waits rank q gone)
    {p : Nat × Fin k} {rest : Dict Nat (Fin k)} (hq : q.ready = p :: rest) :
    p.1 = rank p.2 ∧ p.2 ∉ gone ∧ (∀ b ∈ waits.successors p.2, b ∈ gone) ∧
      ∀ x, x ∉ gone → (∀ b ∈ waits.successors x, b ∈ gone) → rank p.2 ≤ rank x := by
  obtain ⟨c, rfl, hc, hzero⟩ := (h.mem_ready p).1 (by simp [hq])
  have hsorted := h.sorted
  rw [hq] at hsorted
  obtain ⟨hhead, -⟩ := List.pairwise_cons.1 hsorted
  refine ⟨rfl, hc, ?_, fun x hx hxw => ?_⟩
  · rwa [h.remaining, awaited_eq_zero] at hzero
  · have hready : (rank x, x) ∈ q.ready :=
      (h.mem_ready _).2 ⟨x, rfl, hx, by rw [h.remaining, awaited_eq_zero]; exact hxw⟩
    rw [hq] at hready
    rcases List.mem_cons.1 hready with heq | hx
    · exact Nat.le_of_eq (congrArg Prod.fst heq).symm
    · exact Nat.le_of_lt (hhead _ hx)

include hnodup hrank in
/-- The departure of the foremost ready vertex: releasing what waits for it goes well, and the
counts and the ready vertices are those of the vertices gone by then. -/
theorem Counts.depart {q : Queue k} {gone : List (Fin k)} (h : Counts waits rank q gone)
    {p : Nat × Fin k} {rest : Dict Nat (Fin k)} (hq : q.ready = p :: rest) :
    ∃ q', (waits.transpose.successors p.2).foldlM (release? rank) { q with ready := rest } =
      some q' ∧ Counts waits rank q' (gone ++ [p.2]) := by
  obtain ⟨hkey, hc, hwaits, -⟩ := h.foremost hq
  obtain ⟨key, c⟩ := p
  dsimp only at hkey hc hwaits ⊢
  subst hkey
  have hsorted := h.sorted
  rw [hq] at hsorted
  obtain ⟨hhead, hrest⟩ := List.pairwise_cons.1 hsorted
  -- what waits for `c` counts it, so its count is positive and it is not ready
  have hcount : ∀ x : Fin k, entry q.remaining x =
      awaited waits (gone ++ [c]) x + if c ∈ waits.successors x then 1 else 0 := fun x => by
    rw [h.remaining, awaited_concat (hnodup x) hc]
  have hpos : ∀ x ∈ waits.transpose.successors c, 0 < entry q.remaining x := by
    intro x hx
    have := hcount x
    rw [if_pos (Graph.mem_transpose.1 hx)] at this
    omega
  have hunblocks : (waits.transpose.successors c).Nodup := by
    rw [Graph.transpose, Graph.successors_ofFn]
    exact (List.nodup_finRange k).filter _
  obtain ⟨q', hq', hsorted', hrem', hmem'⟩ :=
    releases (q := { q with ready := rest }) hrank hunblocks hrest hpos fun r hr => by
      obtain ⟨x, rfl, -, hx⟩ := (h.mem_ready r).1 (by simp [hq, hr])
      exact ⟨rfl, fun hmem => absurd hx (Nat.ne_of_gt (hpos x hmem))⟩
  -- a count was one more than it is now for what waits for `c`, and is as it was for all others
  have hrem : ∀ x : Fin k, entry q'.remaining x = awaited waits (gone ++ [c]) x := by
    intro x
    have hx : entry q'.remaining x = entry q.remaining x - _ := hrem' x
    rw [hx, hcount x, if_congr Graph.mem_transpose rfl rfl]
    omega
  refine ⟨q', hq', ?_, hrem, hsorted', fun r => ?_⟩
  · intro x hx b hb
    rw [List.mem_append] at hx ⊢
    rcases hx with hx | hx
    · exact Or.inl (h.closed x hx b hb)
    · rw [List.mem_singleton.1 hx] at hb
      exact Or.inl (hwaits b hb)
  rw [hmem']
  constructor
  · rintro (hr | ⟨x, hx, rfl, hone⟩)
    · -- it was ready before, and is another one than `c`
      obtain ⟨x, rfl, hx, hx0⟩ := (h.mem_ready r).1 (by simp [hq, hr])
      have hxc : x ≠ c := by
        rintro rfl
        exact Nat.lt_irrefl _ (hhead _ hr)
      refine ⟨x, rfl, by simp [hx, hxc], ?_⟩
      have := hcount x
      rw [hrem]
      omega
    · -- it waited for `c` and nothing else, so it is neither gone nor `c` itself
      have hcx := Graph.mem_transpose.1 hx
      have hone : awaited waits gone x = 1 := (h.remaining x).symm.trans hone
      have hxg : x ∉ gone := by
        intro hxg
        rw [awaited_eq_zero.2 (h.closed x hxg)] at hone
        cases hone
      have hxc : x ≠ c := by
        rintro rfl
        rw [awaited_eq_zero.2 hwaits] at hone
        cases hone
      refine ⟨x, rfl, by simp [hxg, hxc], ?_⟩
      rw [hrem, awaited_concat_eq_zero (hnodup x) hc]
      exact .inr ⟨hone, hcx⟩
  · rintro ⟨x, rfl, hx, hx0⟩
    rw [List.mem_append, List.mem_singleton, not_or] at hx
    rw [hrem, awaited_concat_eq_zero (hnodup x) hc] at hx0
    rcases hx0 with ⟨hzero, -⟩ | ⟨hone, hcx⟩
    · have hready := (h.mem_ready (rank x, x)).2 ⟨x, rfl, hx.1, (h.remaining x).trans hzero⟩
      rw [hq] at hready
      rcases List.mem_cons.1 hready with heq | hready
      · exact absurd (congrArg Prod.snd heq) hx.2
      · exact Or.inl hready
    · exact Or.inr ⟨x, Graph.mem_transpose.2 hcx, rfl, (h.remaining x).trans hone⟩

include hdesc hnodup hrank in
/-- A queue is drained without a count falling below zero, and what it puts out is greedy. -/
theorem Counts.drain {q : Queue k} {gone : List (Fin k)} (h : Counts waits rank q gone) :
    ∃ order, q.drain? rank waits.transpose = some order ∧ Greedy waits rank gone order := by
  induction q using Queue.drain?.induct rank waits.transpose generalizing gone with
  | case1 q hq =>
    rw [drain?]
    split
    · exact ⟨[], rfl, h.all_gone hdesc hq⟩
    · simp_all
  | case2 q key c rest hq hfail =>
    -- a release that fails would be a count below zero
    obtain ⟨q', hq', -⟩ := h.depart hnodup hrank hq
    rw [hq'] at hfail
    cases hfail
  | case3 q key c rest hq q' hreleased ih =>
    obtain ⟨-, hc, hwaits, hleast⟩ := h.foremost hq
    obtain ⟨q'', hq'', hcounts⟩ := h.depart hnodup hrank hq
    obtain rfl : q' = q'' := Option.some.inj (hreleased.symm.trans hq'')
    obtain ⟨order, horder, hgreedy⟩ := ih hcounts
    refine ⟨c :: order, ?_, hc, hwaits, hleast, hgreedy⟩
    rw [drain?]
    split
    · simp_all
    · rename_i key' c' rest' hq₂
      obtain ⟨⟨rfl, rfl⟩, rfl⟩ : (key = key' ∧ c = c') ∧ rest = rest' := by
        simpa [hq] using hq₂
      split
      · simp_all
      · simp_all

end Queue

end CrudGen
