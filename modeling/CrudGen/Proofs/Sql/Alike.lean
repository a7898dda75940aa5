import CrudGen.Sql.Parser.Basic

/-!
# Parsers — two that read alike

`Alike view p q` says that `p` and `q` fail in the same way or leave the same tokens, and that what
they read looks the same to `view`. There is one lemma for each way of putting parsers together: two
repetitions are alike if their steps are, from states that look the same.
-/

namespace CrudGen.Sql.Parser

variable {α β γ δ σ : Type} {view : α → γ} {view' : β → δ} {p q : Parser α} {f g : α → Parser β}

/-- Two results of parsers look the same. -/
inductive LooksAlike (view : α → γ) :
    Except SyntaxError (α × List Token) → Except SyntaxError (α × List Token) → Prop
  | error (e : SyntaxError) : LooksAlike view (.error e) (.error e)
  | ok {a b : α} {rest : List Token} (h : view a = view b) :
    LooksAlike view (.ok (a, rest)) (.ok (b, rest))

theorem LooksAlike.of_error {e : SyntaxError} {y : Except SyntaxError (α × List Token)}
    (h : LooksAlike view (.error e) y) : y = .error e := by
  cases h
  rfl

theorem LooksAlike.of_ok {a : α} {rest : List Token} {y : Except SyntaxError (α × List Token)}
    (h : LooksAlike view (.ok (a, rest)) y) : ∃ b, y = .ok (b, rest) ∧ view a = view b := by
  cases h with
  | ok hsame => exact ⟨_, rfl, hsame⟩

/-- Two parsers have results that look the same, whatever they read from. -/
def Alike (view : α → γ) (p q : Parser α) : Prop :=
  ∀ ts, LooksAlike view (p ts) (q ts)

theorem Alike.refl : Alike view p p := by
  intro ts
  cases p ts with
  | error e => exact .error e
  | ok r => exact .ok rfl

theorem Alike.pure {a b : α} (h : view a = view b) : Alike view (Pure.pure a) (Pure.pure b) :=
  fun _ => .ok h

theorem Alike.bind (hp : Alike view p q)
    (hf : ∀ a b, view a = view b → Alike view' (f a) (g b)) : Alike view' (p >>= f) (q >>= g) := by
  intro ts
  change LooksAlike view' (Except.bind (p ts) fun r => f r.1 r.2)
    (Except.bind (q ts) fun r => g r.1 r.2)
  have h := hp ts
  generalize p ts = x at h
  generalize q ts = y at h
  cases h with
  | error e => exact .error e
  | ok hsame => exact hf _ _ hsame _

/-- For a parser that both begin with. -/
theorem Alike.next (hf : ∀ a, Alike view' (f a) (g a)) : Alike view' (p >>= f) (p >>= g) :=
  .bind (show Alike id p p from .refl) fun a _ (h : a = _) => h ▸ hf a

theorem Alike.lift {x y : Except SyntaxError α} (h : x.map view = y.map view) :
    Alike view (liftM x : Parser α) (liftM y) := by
  intro ts
  cases x with
  | error e =>
    cases y with
    | error e' =>
      cases h
      exact .error e
    | ok b => cases h
  | ok a =>
    cases y with
    | error e' => cases h
    | ok b => exact .ok (Except.ok.inj h)

theorem Alike.ite {c : Prop} [Decidable c] {p' q' : Parser α} (hp : c → Alike view p q)
    (hq : ¬ c → Alike view p' q') : Alike view (if c then p else p') (if c then q else q') := by
  split
  · exact hp ‹_›
  · exact hq ‹_›

/-- What is seen of the next step of a repetition. -/
def stepView (view : σ → γ) : ForInStep σ → ForInStep γ
  | .done s => .done (view s)
  | .yield s => .yield (view s)

theorem stepView_done {view : σ → γ} {s : σ} {next : ForInStep σ}
    (h : stepView view (.done s) = stepView view next) :
    ∃ s', next = .done s' ∧ view s = view s' := by
  cases next with
  | done s' => exact ⟨s', rfl, ForInStep.done.inj h⟩
  | yield s' => cases h

theorem stepView_yield {view : σ → γ} {s : σ} {next : ForInStep σ}
    (h : stepView view (.yield s) = stepView view next) :
    ∃ s', next = .yield s' ∧ view s = view s' := by
  cases next with
  | done s' => cases h
  | yield s' => exact ⟨s', rfl, ForInStep.yield.inj h⟩

/-- What steps keep looking the same looks the same when their repetition ends. -/
theorem Alike.iterate {view : σ → γ} {step step' : σ → Parser (ForInStep σ)} {s s' : σ}
    (hs : view s = view s') (hstep : ∀ s s', view s = view s' →
      Alike (stepView view) (step s) (step' s')) :
    Alike view (iterate step s) (iterate step' s') := by
  intro ts
  -- induction along the first repetition: the second one leaves the same tokens in each round
  induction s, ts using iterate.induct step generalizing s' with
  | case1 s ts e he =>
    have he' := (he ▸ hstep s s' hs ts).of_error
    rw [Parser.iterate, Parser.iterate, he, he']
    exact .error e
  | case2 s ts t rest hdone =>
    obtain ⟨next, hdone', h⟩ := (hdone ▸ hstep s s' hs ts).of_ok
    obtain ⟨t', rfl, ht⟩ := stepView_done h
    rw [Parser.iterate, Parser.iterate, hdone, hdone']
    exact .ok ht
  | case3 s ts t rest hyield hlt ih =>
    obtain ⟨next, hyield', h⟩ := (hyield ▸ hstep s s' hs ts).of_ok
    obtain ⟨t', rfl, ht⟩ := stepView_yield h
    rw [Parser.iterate, Parser.iterate, hyield, hyield']
    simp only [hlt, if_true]
    exact ih ht
  | case4 s ts t rest hyield hlt =>
    obtain ⟨next, hyield', h⟩ := (hyield ▸ hstep s s' hs ts).of_ok
    obtain ⟨t', rfl, ht⟩ := stepView_yield h
    rw [Parser.iterate, Parser.iterate, hyield, hyield']
    simp only [hlt, if_false]
    exact .ok ht

end CrudGen.Sql.Parser
