/-!
# Results that may be errors

What a successful result says about the steps it was put together from. A property that every step
keeps holds after a run of steps.
-/

namespace CrudGen

variable {ε ε' α β γ δ σ τ : Type}

theorem ok_of_bind {x : Except ε α} {f : α → Except ε β} {b : β} (h : x >>= f = .ok b) :
    ∃ a, x = .ok a ∧ f a = .ok b := by
  cases x with
  | error e => cases h
  | ok a => exact ⟨a, rfl, h⟩

theorem ok_of_mapError {x : Except ε α} {f : ε → ε'} {a : α} (h : x.mapError f = .ok a) :
    x = .ok a := by
  cases x with
  | error e => cases h
  | ok a' =>
    cases h
    rfl

theorem ok_of_map {x : Except ε α} {f : α → β} {b : β} (h : x.map f = .ok b) :
    ∃ a, x = .ok a ∧ f a = b := by
  cases x with
  | error e => cases h
  | ok a =>
    cases h
    exact ⟨a, rfl, rfl⟩

/-- The steps of a list of lists are taken list by list. -/
theorem foldlM_flatMap {step : σ → β → Except ε σ} {f : α → List β} {as : List α} {s : σ} :
    (as.flatMap f).foldlM step s = as.foldlM (fun s a => (f a).foldlM step s) s := by
  induction as generalizing s with
  | nil => rfl
  | cons a rest ih =>
    rw [List.flatMap_cons, List.foldlM_append, List.foldlM_cons]
    exact congrArg _ (funext fun _ => ih)

/-- Steps that go along with a view of states go along with it together. -/
theorem foldlM_view {step : σ → α → Except ε σ} {step' : τ → β → Except ε τ} {f : σ → τ}
    {g : α → β} (hstep : ∀ s a, step' (f s) (g a) = (step s a).map f) (as : List α) (s : σ) :
    (as.map g).foldlM step' (f s) = (as.foldlM step s).map f := by
  induction as generalizing s with
  | nil => rfl
  | cons a rest ih =>
    rw [List.map_cons, List.foldlM_cons, List.foldlM_cons, hstep]
    cases step s a with
    | error e => rfl
    | ok s' => exact ih s'

/-- What every step keeps holds after the last one. -/
theorem foldlM_ok {step : σ → α → Except ε σ} {I : σ → Prop} {as : List α} {s s' : σ}
    (hstep : ∀ a ∈ as, ∀ s s', I s → step s a = .ok s' → I s') (hs : I s)
    (h : as.foldlM step s = .ok s') : I s' := by
  induction as generalizing s with
  | nil =>
    cases h
    exact hs
  | cons a rest ih =>
    rw [List.foldlM_cons] at h
    obtain ⟨s₁, hfirst, hrest⟩ := ok_of_bind h
    exact ih (fun b hb => hstep b (List.mem_cons_of_mem _ hb))
      (hstep a List.mem_cons_self s s₁ hs hfirst) hrest

/-- A loop that comes to its end has checked every element. -/
theorem checked_of_forIn {check : α → Except ε Unit} {as : List α} {u : PUnit}
    (h : (forIn as PUnit.unit fun a _ => do check a; return .yield PUnit.unit) = .ok u) :
    ∀ a ∈ as, check a = .ok () := by
  induction as with
  | nil => exact nofun
  | cons a rest ih =>
    rw [List.forIn_cons] at h
    obtain ⟨next, hfirst, hrest⟩ := ok_of_bind h
    obtain ⟨_, hcheck, hnext⟩ := ok_of_bind hfirst
    cases hnext
    exact List.forall_mem_cons.2 ⟨hcheck, ih hrest⟩

-- ---------------------------------------------------------------------------
-- Results that look the same
-- ---------------------------------------------------------------------------

theorem toOption_mapError (x : Except ε α) (f : ε → ε') :
    (x.mapError f).toOption = x.toOption := by
  cases x <;> rfl

/-- Two results in a row look the same if the first ones do and the second ones do. -/
theorem toOption_bind_view {x x' : Except ε α} {f f' : α → Except ε β} {v : α → γ} {w : β → δ}
    (hx : x.toOption.map v = x'.toOption.map v)
    (hf : ∀ a a', v a = v a' → (f a).toOption.map w = (f' a').toOption.map w) :
    (x >>= f).toOption.map w = (x' >>= f').toOption.map w := by
  cases x with
  | error e =>
    cases x' with
    | error e' => rfl
    | ok a' => cases hx
  | ok a =>
    cases x' with
    | error e' => cases hx
    | ok a' => exact hf a a' (Option.some.inj hx)

theorem toOption_bind_congr {x x' : Except ε α} {f f' : α → Except ε β} {w : β → δ}
    (hx : x.toOption = x'.toOption)
    (hf : ∀ a, (f a).toOption.map w = (f' a).toOption.map w) :
    (x >>= f).toOption.map w = (x' >>= f').toOption.map w :=
  toOption_bind_view (v := id) (congrArg (Option.map id) hx) fun a _ (h : a = _) => h ▸ hf a

/-- Steps that look the same make runs that look the same. -/
theorem foldlM_toOption_view {step : σ → α → Except ε σ} {v : σ → τ} {g : α → β}
    (hstep : ∀ {s s' a a'}, v s = v s' → g a = g a' →
      (step s a).toOption.map v = (step s' a').toOption.map v)
    {as as' : List α} (has : as.map g = as'.map g) {s s' : σ} (hs : v s = v s') :
    (as.foldlM step s).toOption.map v = (as'.foldlM step s').toOption.map v := by
  induction as generalizing as' s s' with
  | nil =>
    obtain rfl : as' = [] := List.map_eq_nil_iff.1 has.symm
    exact congrArg some hs
  | cons a rest ih =>
    obtain ⟨a', rest', rfl, ha, hrest⟩ := List.map_eq_cons_iff.1 has.symm
    rw [List.foldlM_cons, List.foldlM_cons]
    exact toOption_bind_view (hstep hs ha.symm) fun _ _ h => ih hrest.symm h

-- ---------------------------------------------------------------------------
-- Results side by side
-- ---------------------------------------------------------------------------

/-- Two results are the same error, or two successes that are related. -/
inductive Parallel (R : α → β → Prop) : Except ε α → Except ε β → Prop
  | error (e : ε) : Parallel R (.error e) (.error e)
  | ok {a : α} {b : β} (h : R a b) : Parallel R (.ok a) (.ok b)

namespace Parallel

variable {R : α → β → Prop} {S : γ → δ → Prop}

theorem bind {x : Except ε α} {y : Except ε β} {f : α → Except ε γ} {g : β → Except ε δ}
    (h : Parallel R x y) (hf : ∀ a b, R a b → Parallel S (f a) (g b)) :
    Parallel S (x >>= f) (y >>= g) := by
  cases h with
  | error e => exact .error e
  | ok h => exact hf _ _ h

/-- For a result that both go on with. -/
theorem next {x : Except ε α} {f : α → Except ε γ} {g : α → Except ε δ}
    (hf : ∀ a, Parallel S (f a) (g a)) : Parallel S (x >>= f) (x >>= g) := by
  cases x with
  | error e => exact .error e
  | ok a => exact hf a

/-- Steps that keep states related make runs that do. -/
theorem foldlM {R : σ → τ → Prop} {step : σ → α → Except ε σ} {step' : τ → α → Except ε τ}
    (hstep : ∀ s s' a, R s s' → Parallel R (step s a) (step' s' a)) (as : List α) {s : σ} {s' : τ}
    (hs : R s s') : Parallel R (as.foldlM step s) (as.foldlM step' s') := by
  induction as generalizing s s' with
  | nil => exact .ok hs
  | cons a rest ih =>
    rw [List.foldlM_cons, List.foldlM_cons]
    exact (hstep s s' a hs).bind fun _ _ h => ih h

end Parallel

end CrudGen
