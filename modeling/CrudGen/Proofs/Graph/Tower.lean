import Mathlib.Tactic.Tauto
import CrudGen.Proofs.Graph.Reach

/-!
# Graphs — the stack of a depth-first walk

The stack of a walk falls into one segment for each frame: the frame's vertex and the vertices that
were entered from it and left again without closing a component. `Segment` states the facts about
one of them, `Tower` puts them on top of each other. All facts are relative to the indices of
vertices and to the vertices seen so far, which change while the walk goes on.

Main results:

* `Tower.advance` — following an edge of the uppermost frame keeps the tower.
* `Tower.push` — entering a vertex puts a segment on top of it.
* `Tower.merge` — leaving a vertex that leads further down adds its segment to the one below.
* `Tower.reaches_top` — every vertex of the stack reaches the uppermost frame's vertex.
-/

namespace CrudGen.Graph

variable {n : Nat} {g : Graph n} {idx idx' : Fin n → Nat} {seen seen' : Fin n → Prop}

-- ---------------------------------------------------------------------------
-- Segments and towers
-- ---------------------------------------------------------------------------

/-- The edge from `x` to `w` was followed: `x` is left already, or it is the frame's vertex and `w`
is not among its successors to come. -/
def Explored (g : Graph n) (f : Frame n) (segment : List (Fin n)) (x w : Fin n) : Prop :=
  g.Edge x w ∧ (x ∈ segment ∨ x = f.vertex ∧ w ∉ f.todo)

/-- The facts about a frame, the vertices `segment` above it and the `stack` below it. -/
structure Segment (g : Graph n) (idx : Fin n → Nat) (seen : Fin n → Prop) (f : Frame n)
    (segment stack : List (Fin n)) : Prop where
  linked  : ∀ x ∈ segment, g.Mutual f.vertex x
  above   : ∀ x ∈ segment, idx f.vertex < idx x
  below   : ∀ x ∈ stack, idx x < idx f.vertex
  todo    : ∀ w ∈ f.todo, g.Edge f.vertex w
  seen    : ∀ x w, Explored g f segment x w → seen w
  low     : ∃ u ∈ f.vertex :: stack, idx u = f.lowlink ∧ g.Reaches f.vertex u
  low_le  : ∀ x w, Explored g f segment x w → w ∈ segment ++ f.vertex :: stack →
              f.lowlink ≤ idx w

/-- Frames with the segments of the stack that belong to them. -/
inductive Tower (g : Graph n) (idx : Fin n → Nat) (seen : Fin n → Prop) :
    List (Frame n) → List (Fin n) → Prop
  | nil : Tower g idx seen [] []
  | cons {f : Frame n} {frames : List (Frame n)} {segment stack : List (Fin n)}
      (below : Tower g idx seen frames stack)
      (edge : ∀ p ∈ frames.head?, g.Edge p.vertex f.vertex)
      (facts : Segment g idx seen f segment stack) :
      Tower g idx seen (f :: frames) (segment ++ f.vertex :: stack)

/-- The uppermost segment of a tower and the tower below it. -/
theorem Tower.top {f : Frame n} {frames : List (Frame n)} {stack : List (Fin n)}
    (h : Tower g idx seen (f :: frames) stack) :
    ∃ segment below, stack = segment ++ f.vertex :: below ∧ Tower g idx seen frames below ∧
      (∀ p ∈ frames.head?, g.Edge p.vertex f.vertex) ∧ Segment g idx seen f segment below := by
  cases h with
  | cons below edge facts => exact ⟨_, _, rfl, below, edge, facts⟩

/-- A frame leads no further up than to its own vertex. -/
theorem Segment.lowlink_le {f : Frame n} {segment stack : List (Fin n)}
    (h : Segment g idx seen f segment stack) : f.lowlink ≤ idx f.vertex := by
  obtain ⟨u, hu, hlow, -⟩ := h.low
  rcases List.mem_cons.1 hu with rfl | hu
  · exact Nat.le_of_eq hlow.symm
  · exact hlow ▸ Nat.le_of_lt (h.below u hu)

/-- The segment of a frame lies above everything below it. -/
theorem Segment.below_lt {f : Frame n} {segment stack : List (Fin n)}
    (h : Segment g idx seen f segment stack) {x y : Fin n} (hx : x ∈ stack)
    (hy : y ∈ segment ∨ y = f.vertex) : idx x < idx y := by
  rcases hy with hy | rfl
  · exact Nat.lt_trans (h.below x hx) (h.above y hy)
  · exact h.below x hx

theorem Segment.congr {f : Frame n} {segment stack : List (Fin n)}
    (h : Segment g idx seen f segment stack)
    (hidx : ∀ x ∈ segment ++ f.vertex :: stack, idx' x = idx x) (hseen : ∀ x, seen x → seen' x) :
    Segment g idx' seen' f segment stack := by
  have hv : idx' f.vertex = idx f.vertex := hidx _ (by simp)
  refine ⟨h.linked, fun x hx => ?_, fun x hx => ?_, h.todo, fun x w hxw => hseen w (h.seen x w hxw),
    ?_, fun x w hxw hw => ?_⟩
  · rw [hv, hidx x (by simp [hx])]
    exact h.above x hx
  · rw [hv, hidx x (by simp [hx])]
    exact h.below x hx
  · obtain ⟨u, hu, hlow, hreach⟩ := h.low
    exact ⟨u, hu, by rw [hidx u (List.mem_append_right _ hu), hlow], hreach⟩
  · rw [hidx w hw]
    exact h.low_le x w hxw hw

/-- A tower depends on the indices of its own vertices, and more vertices may be seen. -/
theorem Tower.congr {frames : List (Frame n)} {stack : List (Fin n)}
    (h : Tower g idx seen frames stack) (hidx : ∀ x ∈ stack, idx' x = idx x)
    (hseen : ∀ x, seen x → seen' x) : Tower g idx' seen' frames stack := by
  induction h with
  | nil => exact .nil
  | cons _ edge facts ih =>
    refine .cons (ih fun x hx => hidx x ?_) edge (facts.congr hidx hseen)
    simp [hx]

/-- Every vertex of the stack reaches the vertex of the uppermost frame. -/
theorem Tower.reaches_top {f : Frame n} {frames : List (Frame n)} {stack : List (Fin n)}
    (h : Tower g idx seen (f :: frames) stack) : ∀ x ∈ stack, g.Reaches x f.vertex := by
  obtain ⟨segment, below, rfl, hbelow, hedge, hfacts⟩ := h.top
  intro x hx
  rcases List.mem_append.1 hx with hx | hx
  · exact (hfacts.linked x hx).2
  rcases List.mem_cons.1 hx with rfl | hx
  · exact .refl _
  · -- from further down the way leads through the frame below and its edge up
    cases frames with
    | nil =>
      cases hbelow
      simp at hx
    | cons p rest => exact (hbelow.reaches_top x hx).trans (hedge p rfl).reaches

-- ---------------------------------------------------------------------------
-- What steps do to a tower
-- ---------------------------------------------------------------------------

/-- Following the next edge of the uppermost frame. The vertex it leads to is seen by now; if it is
on the stack, its index counts for the frame. -/
theorem Tower.advance {f : Frame n} {frames : List (Frame n)} {stack : List (Fin n)} {w : Fin n}
    {todo : List (Fin n)} {low : Nat} (h : Tower g idx seen (f :: frames) stack)
    (hw : f.todo = w :: todo) (hseen : seen w) (hlow : low ≤ f.lowlink)
    (hle : w ∈ stack → low ≤ idx w) (hsound : low = f.lowlink ∨ w ∈ stack ∧ low = idx w) :
    Tower g idx seen ({ f with todo, lowlink := low } :: frames) stack := by
  obtain ⟨segment, below, rfl, hbelow, hedge, hfacts⟩ := h.top
  have hew : g.Edge f.vertex w := hfacts.todo w (by simp [hw])
  -- an edge explored now was explored before or leads to `w`
  have hsplit : ∀ x y, Explored g { f with todo, lowlink := low } segment x y →
      Explored g f segment x y ∨ x = f.vertex ∧ y = w := by
    rintro x y ⟨hxy, hx | ⟨rfl, hy⟩⟩
    · exact Or.inl ⟨hxy, Or.inl hx⟩
    · by_cases hyw : y = w
      · exact Or.inr ⟨rfl, hyw⟩
      · exact Or.inl ⟨hxy, Or.inr ⟨rfl, by rw [hw]; simp [hyw]; exact hy⟩⟩
  refine .cons (f := { f with todo, lowlink := low }) hbelow hedge
    ⟨hfacts.linked, hfacts.above, hfacts.below, fun y hy => hfacts.todo y (by simp [hw, hy]), ?_,
      ?_, ?_⟩
  · intro x y hxy
    rcases hsplit x y hxy with hxy | ⟨rfl, rfl⟩
    · exact hfacts.seen x y hxy
    · exact hseen
  · rcases hsound with rfl | ⟨hws, rfl⟩
    · exact hfacts.low
    rcases List.mem_append.1 hws with hws | hws
    · -- above the frame's vertex: the index cannot have lowered anything
      have := hfacts.above w hws
      have := hfacts.lowlink_le
      omega
    · exact ⟨w, hws, rfl, hew.reaches⟩
  · intro x y hxy hy
    rcases hsplit x y hxy with hxy | ⟨rfl, rfl⟩
    · exact Nat.le_trans hlow (hfacts.low_le x y hxy hy)
    · exact hle hy

/-- Entering a vertex that is not on the stack. -/
theorem Tower.push {frames : List (Frame n)} {stack : List (Fin n)} {w : Fin n}
    (h : Tower g idx seen frames stack) (hedge : ∀ p ∈ frames.head?, g.Edge p.vertex w)
    (hidx : ∀ x ∈ stack, idx x < idx w) :
    Tower g idx seen
      ({ vertex := w, lowlink := idx w, todo := g.successors w } :: frames) (w :: stack) := by
  -- nothing of a vertex just entered is explored
  have hnone : ∀ x y,
      ¬ Explored g { vertex := w, lowlink := idx w, todo := g.successors w } [] x y := by
    rintro x y ⟨hxy, hx | ⟨rfl, hy⟩⟩
    · simp at hx
    · exact hy hxy
  have hfacts : Segment g idx seen { vertex := w, lowlink := idx w, todo := g.successors w } []
      stack :=
    ⟨by simp, by simp, hidx, fun _ hy => hy, fun x y hxy => absurd hxy (hnone x y),
      ⟨w, by simp, rfl, .refl w⟩, fun x y hxy => absurd hxy (hnone x y)⟩
  exact Tower.cons h hedge hfacts

/-- Leaving a vertex that leads further down than to itself: it and its segment belong to the frame
below from now on. -/
theorem Tower.merge {f p : Frame n} {frames : List (Frame n)} {stack : List (Fin n)}
    (h : Tower g idx seen (f :: p :: frames) stack) (htodo : f.todo = [])
    (hlow : f.lowlink ≠ idx f.vertex) :
    Tower g idx seen ({ p with lowlink := min p.lowlink f.lowlink } :: frames) stack := by
  obtain ⟨segf, below, rfl, hbelow, hedge, hf⟩ := h.top
  have hreach := hbelow.reaches_top
  obtain ⟨segp, rest, rfl, hrest, hedge', hp⟩ := hbelow.top
  have hpf : g.Edge p.vertex f.vertex := hedge p rfl
  -- `f` leads to a vertex `u` strictly below it, which leads to `p`
  obtain ⟨u, hu, hulow, hfu⟩ := hf.low
  have hu : u ∈ segp ++ p.vertex :: rest := by
    rcases List.mem_cons.1 hu with rfl | hu
    · exact absurd hulow.symm hlow
    · exact hu
  have hpf' : g.Mutual p.vertex f.vertex := ⟨hpf.reaches, hfu.trans (hreach u hu)⟩
  have hpv : ∀ x ∈ segf ++ f.vertex :: segp, g.Mutual p.vertex x := by
    intro x hx
    rcases List.mem_append.1 hx with hx | hx
    · exact hpf'.trans (hf.linked x hx)
    · rcases List.mem_cons.1 hx with rfl | hx
      · exact hpf'
      · exact hp.linked x hx
  have hpidx : idx p.vertex < idx f.vertex := hf.below _ (by simp)
  -- what is explored from the merged segment was explored from one of the two
  have hsplit : ∀ x w,
      Explored g { p with lowlink := min p.lowlink f.lowlink } (segf ++ f.vertex :: segp) x w →
        Explored g f segf x w ∨ Explored g p segp x w := by
    rintro x w ⟨hxw, hx | hx⟩
    · rcases List.mem_append.1 hx with hx | hx
      · exact Or.inl ⟨hxw, Or.inl hx⟩
      · rcases List.mem_cons.1 hx with rfl | hx
        · exact Or.inl ⟨hxw, Or.inr ⟨rfl, by simp [htodo]⟩⟩
        · exact Or.inr ⟨hxw, Or.inl hx⟩
    · exact Or.inr ⟨hxw, Or.inr hx⟩
  have hstack : segf ++ f.vertex :: (segp ++ p.vertex :: rest) =
      (segf ++ f.vertex :: segp) ++ p.vertex :: rest := by simp
  rw [hstack]
  refine .cons (f := { p with lowlink := min p.lowlink f.lowlink }) hrest hedge'
    ⟨hpv, ?_, hp.below, hp.todo, ?_, ?_, ?_⟩
  · intro x hx
    rcases List.mem_append.1 hx with hx | hx
    · exact Nat.lt_trans hpidx (hf.above x hx)
    · rcases List.mem_cons.1 hx with rfl | hx
      · exact hpidx
      · exact hp.above x hx
  · intro x w hxw
    rcases hsplit x w hxw with hxw | hxw
    · exact hf.seen x w hxw
    · exact hp.seen x w hxw
  · -- the lower of the two lowlinks is reached, by way of `f` if it is `f`'s
    rcases Nat.le_total p.lowlink f.lowlink with hle | hle
    · exact (Nat.min_eq_left hle).symm ▸ hp.low
    · refine (Nat.min_eq_right hle).symm ▸ ⟨u, ?_, hulow, hpf.reaches.trans hfu⟩
      rcases List.mem_append.1 hu with hu | hu
      · have := hp.above u hu
        have := hp.lowlink_le
        omega
      · exact hu
  · intro x w hxw hw
    rcases hsplit x w hxw with hxw | hxw
    · exact Nat.le_trans (Nat.min_le_right _ _) (hf.low_le x w hxw (hstack ▸ hw))
    · refine Nat.le_trans (Nat.min_le_left _ _) ?_
      by_cases hwp : w ∈ segp ++ p.vertex :: rest
      · exact hp.low_le x w hxw hwp
      · -- `w` stands above `p`'s vertex
        have hwf : w ∈ segf ∨ w = f.vertex := by
          simp only [List.mem_append, List.mem_cons] at hw hwp
          tauto
        have := hf.below_lt (x := p.vertex) (by simp) hwf
        have := hp.lowlink_le
        omega

/-- An index above the whole stack lowers nothing. -/
theorem Tower.lower_eq {frames : List (Frame n)} {stack : List (Fin n)} {index : Nat}
    (h : Tower g idx seen frames stack) (hindex : ∀ x ∈ stack, idx x < index) :
    Walk.lower index frames = frames := by
  cases h with
  | nil => rfl
  | cons _ _ hfacts =>
    have hle := hfacts.lowlink_le
    have hlt := hindex _ (List.mem_append_right _ (List.mem_cons_self ..))
    rw [Walk.lower, Nat.min_eq_left (by omega)]

end CrudGen.Graph
