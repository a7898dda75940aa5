import Mathlib.Data.List.Nodup
import Mathlib.Logic.Relation
import CrudGen.Schema.Graph

/-!
# Graphs — reachability and components

`Reaches` follows any number of edges, and `Mutual` relates the vertices of one strongly connected
component. `Settled` says what a list of components has to satisfy at any time while a walk adds to
it: each one is a whole component in ascending order, and no edge leads from it to a vertex that no
component up to it holds.
-/

namespace CrudGen.Graph

variable {n : Nat} {g : Graph n}

/-- An entry is the element at the place. -/
theorem entry_eq_getElem {α : Type} (xs : Vector α n) (v : Fin n) :
    entry xs v = getElem xs v.1 v.isLt :=
  rfl

/-- The entry of a vertex after a write at a vertex. -/
theorem entry_set {α : Type} (xs : Vector α n) (v w : Fin n) (a : α) :
    entry (xs.set v a v.isLt) w = if w = v then a else entry xs w := by
  simp only [entry_eq_getElem, Vector.getElem_set]
  by_cases h : w = v
  · simp [h]
  · rw [if_neg (fun hvw => h (Fin.ext hvw.symm)), if_neg h]

/-- The elements at all places make up a list. -/
theorem map_elementAt {α : Type} (xs : List α) :
    (List.finRange xs.length).map (elementAt xs) = xs := by
  rw [List.finRange, List.map_ofFn]
  exact List.ofFn_getElem

/-- The element at a place is one of the list. -/
theorem elementAt_mem {α : Type} (xs : List α) (i : Fin xs.length) : elementAt xs i ∈ xs :=
  List.getElem_mem i.isLt

/-- Elements at different places differ if no element stands twice. -/
theorem elementAt_injective {α : Type} {xs : List α} (h : xs.Nodup) :
    Function.Injective (elementAt xs) :=
  fun _ _ heq => Fin.ext (h.getElem_inj_iff.1 heq)

/-- Every element stands at some place. -/
theorem exists_elementAt {α : Type} {xs : List α} {a : α} (h : a ∈ xs) :
    ∃ i, elementAt xs i = a := by
  obtain ⟨i, hi, rfl⟩ := List.getElem_of_mem h
  exact ⟨⟨i, hi⟩, rfl⟩

/-- The successors of a vertex are those that it was made with. -/
@[simp]
theorem successors_ofFn (f : Fin n → List (Fin n)) (v : Fin n) :
    Graph.successors (.ofFn f) v = f v := by
  rw [successors, entry_eq_getElem, Vector.getElem_ofFn]

-- ---------------------------------------------------------------------------
-- Edges and paths
-- ---------------------------------------------------------------------------

/-- `w` is a successor of `v`. -/
def Edge (g : Graph n) (v w : Fin n) : Prop :=
  w ∈ g.successors v

/-- Some number of edges lead from `v` to `w`. -/
def Reaches (g : Graph n) : Fin n → Fin n → Prop :=
  Relation.ReflTransGen g.Edge

/-- Each of two vertices reaches the other. -/
def Mutual (g : Graph n) (v w : Fin n) : Prop :=
  g.Reaches v w ∧ g.Reaches w v

/-- An edge is a path. -/
theorem Edge.reaches {v w : Fin n} (h : g.Edge v w) : g.Reaches v w :=
  Relation.ReflTransGen.single h

theorem Reaches.refl (v : Fin n) : g.Reaches v v :=
  Relation.ReflTransGen.refl

theorem Reaches.trans {u v w : Fin n} (h : g.Reaches u v) (h' : g.Reaches v w) : g.Reaches u w :=
  Relation.ReflTransGen.trans h h'

theorem Mutual.refl (v : Fin n) : g.Mutual v v :=
  ⟨.refl v, .refl v⟩

theorem Mutual.symm {v w : Fin n} (h : g.Mutual v w) : g.Mutual w v :=
  ⟨h.2, h.1⟩

theorem Mutual.trans {u v w : Fin n} (h : g.Mutual u v) (h' : g.Mutual v w) : g.Mutual u w :=
  ⟨h.1.trans h'.1, h'.2.trans h.2⟩

/-- What no edge leaves, no path leaves. -/
theorem Reaches.closed {P : Fin n → Prop} (hP : ∀ v w, g.Edge v w → P v → P w) {v w : Fin n}
    (h : g.Reaches v w) (hv : P v) : P w := by
  induction h with
  | refl => exact hv
  | tail _ hedge ih => exact hP _ _ hedge ih

/-- Edges are turned round. -/
theorem mem_transpose {v w : Fin n} : w ∈ g.transpose.successors v ↔ v ∈ g.successors w := by
  simp [transpose]

-- ---------------------------------------------------------------------------
-- Lists of components
-- ---------------------------------------------------------------------------

/-- A list of whole components, each after those that it has an edge to. -/
structure Settled (g : Graph n) (cs : List (List (Fin n))) : Prop where
  nodup     : cs.flatten.Nodup
  ne_nil    : ∀ c ∈ cs, c ≠ []
  sorted    : ∀ c ∈ cs, c.Pairwise (· < ·)
  mem_iff   : ∀ c ∈ cs, ∀ v ∈ c, ∀ w, w ∈ c ↔ g.Mutual v w
  edges     : ∀ before c after, cs = before ++ c :: after →
                ∀ v ∈ c, ∀ w, g.Edge v w → w ∈ before.flatten ∨ w ∈ c

theorem Settled.nil : g.Settled [] :=
  ⟨by simp, by simp, by simp, by simp, by simp⟩

/-- Components that hold every vertex hold it once. -/
theorem Settled.perm_finRange {cs : List (List (Fin n))} (h : g.Settled cs)
    (hall : ∀ v, v ∈ cs.flatten) : cs.flatten.Perm (List.finRange n) :=
  (List.perm_ext_iff_of_nodup h.nodup (List.nodup_finRange n)).2 fun v =>
    ⟨fun _ => List.mem_finRange v, fun _ => hall v⟩

/-- A vertex is in one component only. -/
theorem Settled.eq_of_mem {cs : List (List (Fin n))} (h : g.Settled cs) {b c : Fin cs.length}
    {v : Fin n} (hb : v ∈ elementAt cs b) (hc : v ∈ elementAt cs c) : b = c := by
  have hdisj := (List.nodup_flatten.1 h.nodup).2
  rcases Nat.lt_trichotomy b c with hlt | heq | hlt
  · exact absurd hc ((List.pairwise_iff_getElem.1 hdisj b c b.2 c.2 hlt) hb)
  · exact Fin.ext heq
  · exact absurd hb ((List.pairwise_iff_getElem.1 hdisj c b c.2 b.2 hlt) hc)

/-- Between different components an edge leads to an earlier one. -/
theorem Settled.lt_of_edge {cs : List (List (Fin n))} (h : g.Settled cs) {b c : Fin cs.length}
    {v w : Fin n} (hv : v ∈ elementAt cs c) (hw : w ∈ elementAt cs b) (hvw : g.Edge v w)
    (hne : c ≠ b) : b < c := by
  -- the edge ends in a component up to that of `v`, and in no other than that of `w`
  have hcut : cs = cs.take c ++ elementAt cs c :: cs.drop (c + 1) := by simp [elementAt]
  rcases h.edges _ _ _ hcut v hv w hvw with hbefore | hsame
  · obtain ⟨part, hpart, hwpart⟩ := List.mem_flatten.1 hbefore
    obtain ⟨i, hi, rfl⟩ := List.getElem_of_mem hpart
    rw [List.length_take] at hi
    have hic : i < cs.length := by omega
    have hib : (⟨i, hic⟩ : Fin cs.length) = b :=
      h.eq_of_mem (b := ⟨i, hic⟩) (by simpa [elementAt] using hwpart) hw
    rw [← hib]
    exact Fin.lt_def.2 (by show i < c.1; omega)
  · exact absurd (h.eq_of_mem hsame hw) hne

/-- No path leads out of settled components. -/
theorem Settled.closed {cs : List (List (Fin n))} (h : g.Settled cs) {v w : Fin n}
    (hv : v ∈ cs.flatten) (hvw : g.Reaches v w) : w ∈ cs.flatten := by
  refine hvw.closed (fun x y hxy hx => ?_) hv
  obtain ⟨c, hc, hxc⟩ := List.mem_flatten.1 hx
  obtain ⟨before, after, rfl⟩ := List.append_of_mem hc
  rcases h.edges before c after rfl x hxc y hxy with hy | hy
  · rw [List.flatten_append]
    exact List.mem_append_left _ hy
  · exact List.mem_flatten.2 ⟨c, hc, hy⟩

/-- Another component may follow if its edges lead to itself and to those before it. -/
theorem Settled.concat {cs : List (List (Fin n))} (h : g.Settled cs) {c : List (Fin n)}
    (hne : c ≠ []) (hasc : c.Pairwise (· < ·)) (hnew : ∀ v ∈ c, v ∉ cs.flatten)
    (hmut : ∀ v ∈ c, ∀ w ∈ c, g.Mutual v w)
    (hedges : ∀ v ∈ c, ∀ w, g.Edge v w → w ∈ cs.flatten ∨ w ∈ c) : g.Settled (cs ++ [c]) := by
  -- a vertex mutual with one of `c` is in `c` or settled, and settled vertices do not reach `c`
  have hwhole : ∀ v ∈ c, ∀ w, g.Mutual v w → w ∈ c := by
    intro v hv w hvw
    have hstay : w ∈ cs.flatten ∨ w ∈ c := by
      refine hvw.1.closed (P := fun x => x ∈ cs.flatten ∨ x ∈ c) (fun x y hxy hx => ?_) (Or.inr hv)
      rcases hx with hx | hx
      · exact Or.inl (h.closed hx hxy.reaches)
      · exact hedges x hx y hxy
    rcases hstay with hw | hw
    · exact absurd (h.closed hw hvw.2) (hnew v hv)
    · exact hw
  refine ⟨?_, ?_, ?_, ?_, ?_⟩
  · rw [List.flatten_append, List.flatten_singleton, List.nodup_append]
    exact ⟨h.nodup, hasc.imp Fin.ne_of_lt, fun a ha b hb hab => hnew b hb (hab ▸ ha)⟩
  · intro d hd
    rcases List.mem_append.1 hd with hd | hd
    · exact h.ne_nil d hd
    · rw [List.mem_singleton.1 hd]
      exact hne
  · intro d hd
    rcases List.mem_append.1 hd with hd | hd
    · exact h.sorted d hd
    · rw [List.mem_singleton.1 hd]
      exact hasc
  · intro d hd v hv w
    rcases List.mem_append.1 hd with hd | hd
    · exact h.mem_iff d hd v hv w
    · rw [List.mem_singleton.1 hd] at hv ⊢
      exact ⟨hmut v hv w, hwhole v hv w⟩
  · intro before d after hcut v hv w hvw
    rcases List.eq_nil_or_concat after with rfl | ⟨after', e, rfl⟩
    · obtain ⟨rfl, hd⟩ := List.append_inj' hcut rfl
      obtain rfl : c = d := by simpa using hd
      exact hedges v hv w hvw
    · have hcut' : cs ++ [c] = (before ++ d :: after') ++ [e] := by simpa using hcut
      exact h.edges before d after' (List.append_inj' hcut' rfl).1 v hv w hvw

end CrudGen.Graph
