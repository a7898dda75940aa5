import CrudGen.Sql.Parser.Basic

/-!
# Parsers — what their results satisfy

`p.Yields Q` says that whatever `p` reads, and from whatever tokens, satisfies `Q` if `p` does not
fail. There is one lemma for each way of putting parsers together; a repetition yields what its step
preserves.
-/

namespace CrudGen.Sql.Parser

variable {α β σ : Type} {p : Parser α} {f : α → Parser β} {P P' : α → Prop} {Q : β → Prop}

/-- A result of two parsers in a row is a result of the second on what the first leaves. -/
theorem bind_eq_ok {ts rest : List Token} {b : β} (h : (p >>= f) ts = .ok (b, rest)) :
    ∃ a left, p ts = .ok (a, left) ∧ f a left = .ok (b, rest) := by
  change Except.bind (p ts) (fun r => f r.1 r.2) = _ at h
  cases hp : p ts with
  | error e =>
    rw [hp] at h
    cases h
  | ok r =>
    rw [hp] at h
    exact ⟨r.1, r.2, rfl, h⟩

/-- What is read second starts where the first ends. -/
theorem bind_of_ok {ts left : List Token} {a : α} (h : p ts = .ok (a, left)) :
    (p >>= f) ts = f a left := by
  change Except.bind (p ts) (fun r => f r.1 r.2) = _
  rw [h]
  rfl

/-- A result that is dropped was one. -/
theorem discard_iff {ts left : List Token} :
    discard p ts = .ok ((), left) ↔ ∃ a, p ts = .ok (a, left) := by
  change Except.bind (p ts) _ = _ ↔ _
  cases p ts with
  | error e => exact iff_of_false nofun nofun
  | ok r =>
    obtain ⟨a, rest⟩ := r
    constructor
    · rintro ⟨⟩
      exact ⟨a, rfl⟩
    · rintro ⟨_, ⟨⟩⟩
      rfl

/-- A computation without tokens reads none. -/
theorem lift_eq_ok {x : Except SyntaxError α} {ts rest : List Token} {a : α}
    (h : (liftM x : Parser α) ts = .ok (a, rest)) : x = .ok a ∧ rest = ts := by
  cases x with
  | error e => cases h
  | ok b =>
    cases h
    exact ⟨rfl, rfl⟩

/-- Every result of a parser satisfies `P`. -/
def Yields (p : Parser α) (P : α → Prop) : Prop :=
  ∀ ts a rest, p ts = .ok (a, rest) → P a

theorem Yields.trivial : Yields p fun _ => True :=
  fun _ _ _ _ => True.intro

theorem Yields.imp (h : Yields p P) (himp : ∀ a, P a → P' a) : Yields p P' :=
  fun ts a rest ha => himp a (h ts a rest ha)

theorem Yields.pure {a : α} (h : P a) : Yields (Pure.pure a) P := by
  intro ts b rest hb
  cases hb
  exact h

/-- What the first parser reads may be used for the second. -/
theorem Yields.bind (hp : Yields p P) (hf : ∀ a, P a → Yields (f a) Q) : Yields (p >>= f) Q := by
  intro ts b rest h
  obtain ⟨a, left, ha, hb⟩ := bind_eq_ok h
  exact hf a (hp ts a left ha) left b rest hb

/-- For a parser whose result does not matter. -/
theorem Yields.next (hf : ∀ a, Yields (f a) Q) : Yields (p >>= f) Q :=
  .bind .trivial fun a _ => hf a

theorem Yields.throw {e : SyntaxError} : Yields (throw e) P := by
  intro ts a rest h
  cases h

theorem Yields.refuse {what : String} : Yields (refuse what) P := by
  refine .next fun t => ?_
  split <;> exact .throw

theorem Yields.lift {x : Except SyntaxError α} (h : ∀ a, x = .ok a → P a) :
    Yields (liftM x) P :=
  fun _ a _ hx => h a (lift_eq_ok hx).1

theorem Yields.ite {c : Prop} [Decidable c] {p q : Parser α} (hp : c → Yields p P)
    (hq : ¬ c → Yields q P) : Yields (if c then p else q) P := by
  split
  · exact hp ‹_›
  · exact hq ‹_›

-- ---------------------------------------------------------------------------
-- Repetitions
-- ---------------------------------------------------------------------------

/-- Rounds of a repetition lead from one state to another, and from some tokens to the rest. -/
inductive Comes (step : σ → Parser (ForInStep σ)) : σ → List Token → σ → List Token → Prop
  | refl (s : σ) (ts : List Token) : Comes step s ts s ts
  | round {s s' s'' : σ} {ts left rest : List Token} (h : step s ts = .ok (.yield s', left))
      (hlt : left.length < ts.length) (hmore : Comes step s' left s'' rest) :
      Comes step s ts s'' rest

namespace Comes

variable {step : σ → Parser (ForInStep σ)} {s s' s'' : σ} {ts left rest : List Token}

theorem trans (h : Comes step s ts s' left) (h' : Comes step s' left s'' rest) :
    Comes step s ts s'' rest := by
  induction h with
  | refl => exact h'
  | round hround hlt _ ih => exact .round hround hlt (ih h')

/-- What the rounds of a repetition keep on its way holds of what it ends with. -/
theorem yields {I : σ → Prop} {a : σ} (hrun : Parser.iterate step s ts = .ok (a, rest)) (hs : I s)
    (hstep : ∀ {s' next left rest'}, Comes step s ts s' left → I s' →
      step s' left = .ok (next, rest') → I next.value) : I a := by
  -- the invariant is asked of every round reached from the start, so that is what is carried
  suffices hgo : ∀ s' left, Comes step s ts s' left → I s' →
      Parser.iterate step s' left = .ok (a, rest) → I a from hgo s ts (.refl s ts) hs hrun
  intro s' left
  induction s', left using iterate.induct step with
  | case1 s' left e he =>
    intro _ _ h
    rw [Parser.iterate, he] at h
    cases h
  | case2 s' left s'' rest' hdone =>
    intro hcomes hI h
    rw [Parser.iterate, hdone] at h
    cases h
    exact hstep hcomes hI hdone
  | case3 s' left s'' rest' hyield hlt ih =>
    intro hcomes hI h
    rw [Parser.iterate, hyield] at h
    simp only [hlt, if_true] at h
    exact ih (hcomes.trans (.round hyield hlt (.refl _ _))) (hstep hcomes hI hyield) h
  | case4 s' left s'' rest' hyield hlt =>
    intro hcomes hI h
    rw [Parser.iterate, hyield] at h
    simp only [hlt, if_false] at h
    cases h
    exact hstep hcomes hI hyield

end Comes

/-- What a step preserves holds when its repetition ends. -/
theorem Yields.iterate {step : σ → Parser (ForInStep σ)} {I : σ → Prop} {s : σ} (hs : I s)
    (hstep : ∀ s, I s → Yields (step s) fun next => I next.value) :
    Yields (iterate step s) I :=
  fun _ _ _ hrun => Comes.yields hrun hs fun _ hI hnext => hstep _ hI _ _ _ hnext

-- ---------------------------------------------------------------------------
-- Results at one place
-- ---------------------------------------------------------------------------

/-- The token that comes next. -/
def front (ts : List Token) : Token :=
  ts[0]?.getD .eof

variable {ts : List Token} {R : α → List Token → Prop} {S : β → List Token → Prop}

/-- Whatever a parser reads from these tokens, and what it leaves, satisfies `R`. -/
def YieldsAt (p : Parser α) (ts : List Token) (R : α → List Token → Prop) : Prop :=
  ∀ a rest, p ts = .ok (a, rest) → R a rest

theorem YieldsAt.pure {a : α} (h : R a ts) : YieldsAt (Pure.pure a) ts R := by
  rintro _ _ ⟨⟩
  exact h

/-- The second parser reads where the first one has ended. -/
theorem YieldsAt.bind (h : ∀ a left, p ts = .ok (a, left) → YieldsAt (f a) left S) :
    YieldsAt (p >>= f) ts S := by
  intro b rest hb
  obtain ⟨a, left, ha, hb⟩ := bind_eq_ok hb
  exact h a left ha b rest hb

/-- Nothing is read here that is not read anywhere. -/
theorem Yields.at (h : Yields p P) (hR : ∀ a rest, P a → R a rest) :
    YieldsAt p ts R :=
  fun a rest ha => hR a rest (h ts a rest ha)

/-- What is decided by the next token. -/
theorem YieldsAt.look {f : Token → Parser β} (h : ∀ t, front ts = t → YieldsAt (f t) ts S) :
    YieldsAt (current >>= f) ts S :=
  h (front ts) rfl

/-- A choice of a token, as a function of the tokens. -/
theorem accept_eq (q : Token → Bool) (ts : List Token) :
    accept q ts = if q (front ts) then .ok (true, ts.drop 1) else .ok (false, ts) := by
  change (if q (front ts) = true then _ else _ : Parser Bool) ts = _
  cases q (front ts) <;> rfl

/-- Tokens with a next one are not empty. -/
theorem cons_of_front {t : Token} (h : front ts = t) (ht : t ≠ .eof) : ∃ more, ts = t :: more := by
  cases ts with
  | nil => exact absurd h.symm ht
  | cons u more => exact ⟨more, congrArg (· :: more) h⟩

/-- A token that is accepted came next. -/
theorem cons_of_accept {t : Token} {left : List Token} (ht : t ≠ .eof)
    (h : accept (· == t) ts = .ok (true, left)) : ts = t :: left := by
  rw [accept_eq] at h
  split at h
  · rename_i hfront
    obtain ⟨more, rfl⟩ := cons_of_front (beq_iff_eq.1 hfront) ht
    cases h
    rfl
  · cases h

end CrudGen.Sql.Parser
