import CrudGen.Proofs.Sql.Elements
import CrudGen.Proofs.Sql.Written

/-!
# Parsers — repetitions without a bound

`iterate` ends a repetition once a round has read nothing. `Unbounded` is what a parser comes to when
its repetitions have no such bound: they go on for as long as their rounds say so. `Repeated` lists
the rounds that the parsers of statements repeat. A round `Advances` if it has read something
whenever it goes on, and a parser whose rounds do so `Agrees` with what it comes to without a bound.

Main results:

* `Unbounded.suffix` — whatever is run on the way to a result only drops tokens from the front.
* `Agrees.iterate` — a repetition agrees if its rounds do and advance.
-/

namespace CrudGen.Sql.Parser

variable {α β σ : Type} {p : Parser α} {f : α → Parser β}

-- ---------------------------------------------------------------------------
-- Rounds
-- ---------------------------------------------------------------------------

/-- The rounds that the parsers of statements repeat. -/
inductive Repeated : {σ : Type} → (σ → Parser (ForInStep σ)) → Prop
  | namePart (what : String) : Repeated (namePart what)
  | columnSuffix : Repeated columnSuffix
  | listColumn : Repeated listColumn
  | typePart : Repeated typePart
  | typeSuffix : Repeated typeSuffix
  | referenceClause : Repeated referenceClause
  | columnClause : Repeated columnClause
  | tableElement (dialect : Dialect) (table : String) : Repeated (tableElement dialect table)
  | indexOption : Repeated indexOption
  | indexElement : Repeated indexElement
  | sequenceOption : Repeated sequenceOption
  | enumLabel : Repeated enumLabel
  | modifier : Repeated modifier
  | alterElement (dialect : Dialect) (table : String) : Repeated (alterElement dialect table)

-- ---------------------------------------------------------------------------
-- What parsers come to without a bound
-- ---------------------------------------------------------------------------

/-- What a parser comes to if its repetitions end only where a round stops or fails. Tokens are seen
through `peek` and dropped by `advance`, or one after the other by what reads up to the end of a
group, of an element, of the arguments of a type or of a default. -/
inductive Unbounded : {α : Type} → Parser α → List Token → Except SyntaxError (α × List Token) → Prop
  | pure {α : Type} (a : α) (ts : List Token) : Unbounded (pure a) ts (.ok (a, ts))
  | throw {α : Type} (e : SyntaxError) (ts : List Token) :
      Unbounded (throw e : Parser α) ts (.error e)
  | peek (n : Nat) (ts : List Token) : Unbounded (peek n) ts (.ok (ts[n]?.getD .eof, ts))
  | advance (ts : List Token) : Unbounded advance ts (.ok ((), ts.drop 1))
  | closing (ts : List Token) : Unbounded closing ts (closing ts)
  | element (ts : List Token) : Unbounded skipElement ts (.ok ((), fromElementEnd 0 ts))
  | arguments (ts : List Token) :
      Unbounded (typeArguments : Parser TypeArguments) ts (typeArguments ts)
  | default (ts : List Token) : Unbounded defaultTokens ts (.ok (spanDefault 0 true ts))
  | bind {α β : Type} {p : Parser α} {f : α → Parser β} {ts left : List Token} {a : α}
      {result : Except SyntaxError (β × List Token)} (hp : Unbounded p ts (.ok (a, left)))
      (hf : Unbounded (f a) left result) : Unbounded (p >>= f) ts result
  | fails {α β : Type} {p : Parser α} {f : α → Parser β} {ts : List Token} {e : SyntaxError}
      (hp : Unbounded p ts (.error e)) : Unbounded (p >>= f) ts (.error e)
  | goesOn {σ : Type} {round : σ → Parser (ForInStep σ)} {s s' : σ} {ts left : List Token}
      {result : Except SyntaxError (σ × List Token)} (hround : Repeated round)
      (hyield : Unbounded (round s) ts (.ok (.yield s', left)))
      (hmore : Unbounded (iterate round s') left result) : Unbounded (iterate round s) ts result
  | stops {σ : Type} {round : σ → Parser (ForInStep σ)} {s s' : σ} {ts left : List Token}
      (hround : Repeated round) (hdone : Unbounded (round s) ts (.ok (.done s', left))) :
      Unbounded (iterate round s) ts (.ok (s', left))
  | breaks {σ : Type} {round : σ → Parser (ForInStep σ)} {s : σ} {ts : List Token}
      {e : SyntaxError} (hround : Repeated round) (hfails : Unbounded (round s) ts (.error e)) :
      Unbounded (iterate round s) ts (.error e)

/-- Nothing on the way to a result goes back, or past the end. -/
theorem Unbounded.suffix {ts : List Token} {result : Except SyntaxError (α × List Token)}
    (h : Unbounded p ts result) : ∀ {a rest}, result = .ok (a, rest) → rest <:+ ts := by
  -- what a run leaves is the end of what it was given, for each step of the parser
  induction h with
  | pure a ts | peek n ts =>
    rintro _ _ ⟨⟩
    exact List.suffix_rfl
  | throw e ts | fails hp ih | breaks hround hfails ih =>
    rintro _ _ ⟨⟩
  | advance ts =>
    rintro _ _ ⟨⟩
    exact List.drop_suffix 1 ts
  | closing ts =>
    intro a rest hrun
    exact (length_afterClosing (afterClosing_of_closing hrun)).1
  | element ts =>
    rintro _ _ ⟨⟩
    exact fromElementEnd_suffix 0 ts
  | arguments ts =>
    intro args rest hread
    exact (typeArguments_suffix hread).1
  | default ts =>
    rintro taken rest hspan
    have happend := spanDefault_append 0 true ts
    rw [Except.ok.inj hspan] at happend
    exact ⟨taken, happend⟩
  | bind hp hf ihp ihf =>
    intro b rest hresult
    exact (ihf hresult).trans (ihp rfl)
  | goesOn hround hyield hmore ihyield ihmore =>
    intro s rest hresult
    exact (ihmore hresult).trans (ihyield rfl)
  | stops hround hdone ih =>
    rintro _ _ ⟨⟩
    exact ih rfl

-- ---------------------------------------------------------------------------
-- Rounds that advance
-- ---------------------------------------------------------------------------

/-- A round that goes on has read something. -/
def Advances (p : Parser (ForInStep σ)) : Prop :=
  ∀ ⦃ts s rest⦄, p ts = .ok (.yield s, rest) → rest.length < ts.length

/-- What is decided by the next token, if the end of the tokens is no reason to go on. -/
theorem Advances.look {f : Token → Parser (ForInStep σ)}
    (hend : ∀ s rest, f .eof [] ≠ .ok (.yield s, rest))
    (hf : ∀ t more s rest, f t (t :: more) = .ok (.yield s, rest) → rest.length ≤ more.length) :
    Advances (current >>= f) := by
  intro ts s rest h
  cases ts with
  | nil => exact absurd h (hend s rest)
  | cons t more => exact Nat.lt_succ_of_le (hf t more s rest h)

/-- What always reads a token, if the end of the tokens is no reason to go on. -/
theorem Advances.of_eager {p : Parser (ForInStep σ)} (hp : Eager p)
    (hend : ∀ s rest, p [] ≠ .ok (.yield s, rest)) : Advances p := by
  intro ts s rest h
  cases ts with
  | nil => exact absurd h (hend s rest)
  | cons t more => exact Nat.lt_succ_of_le (hp h)

-- ---------------------------------------------------------------------------
-- Parsers that agree with what they come to
-- ---------------------------------------------------------------------------

/-- A parser comes to its result without a bound on its repetitions. -/
def Agrees (p : Parser α) : Prop :=
  ∀ ts, Unbounded p ts (p ts)

namespace Agrees

/-- What is left is an end of the tokens. -/
theorem suffix (h : Agrees p) {ts rest : List Token} {a : α} (hp : p ts = .ok (a, rest)) :
    rest <:+ ts :=
  (h ts).suffix hp

theorem pure (a : α) : Agrees (Pure.pure a) :=
  Unbounded.pure a

theorem throw (e : SyntaxError) : Agrees (MonadExcept.throw e : Parser α) :=
  Unbounded.throw e

/-- Going on comes to what is behind the next token. -/
theorem advance : Agrees Parser.advance :=
  Unbounded.advance

/-- What the first parser comes to is where the second starts. -/
theorem bind (hp : Agrees p) (hf : ∀ a, Agrees (f a)) : Agrees (p >>= f) := by
  intro ts
  have hrun := hp ts
  change Unbounded _ ts (Except.bind (p ts) fun r => f r.1 r.2)
  cases hresult : p ts with
  | error e =>
    rw [hresult] at hrun
    exact .fails hrun
  | ok r =>
    rw [hresult] at hrun
    exact .bind hrun (hf r.1 r.2)

theorem map (hp : Agrees p) (g : α → β) : Agrees (g <$> p) :=
  bind hp fun a => pure (g a)

theorem discard (hp : Agrees p) : Agrees (Functor.discard p) :=
  map hp _

theorem lift (x : Except SyntaxError α) : Agrees (liftM x : Parser α) := by
  cases x with
  | error e => exact throw e
  | ok a => exact pure a

theorem ite {c : Prop} [Decidable c] {p q : Parser α} (hp : Agrees p) (hq : Agrees q) :
    Agrees (if c then p else q) := by
  split
  · exact hp
  · exact hq

theorem peek {f : Token → Parser β} (n : Nat) (hf : ∀ t, Agrees (f t)) :
    Agrees (Parser.peek n >>= f) :=
  bind (Unbounded.peek n) hf

/-- The next token may be looked at. -/
theorem look {f : Token → Parser β} (hf : ∀ t, Agrees (f t)) : Agrees (current >>= f) :=
  peek 0 hf

theorem refuse (what : String) : Agrees (Parser.refuse what : Parser α) := by
  refine look fun t => ?_
  split
  · exact throw _
  · exact throw _

/-- Induction along the rounds: where one goes on, fewer tokens are left, so `iterate` goes on. -/
theorem iterate {round : σ → Parser (ForInStep σ)} (hround : Repeated round)
    (hagrees : ∀ s, Agrees (round s)) (hadvances : ∀ s, Advances (round s)) (s : σ) :
    Agrees (Parser.iterate round s) := by
  intro ts
  have hrun := hagrees s ts
  induction s, ts using iterate.induct round with
  | case1 s ts e he =>
    rw [Parser.iterate, he]
    exact .breaks hround (he ▸ hrun)
  | case2 s ts s' rest hdone =>
    rw [Parser.iterate, hdone]
    exact .stops hround (hdone ▸ hrun)
  | case3 s ts s' rest hyield hlt ih =>
    rw [Parser.iterate, hyield]
    simp only [hlt, if_true]
    exact .goesOn hround (hyield ▸ hrun) (ih (hagrees s' rest))
  | case4 s ts s' rest hyield hlt => exact absurd (hadvances s hyield) hlt

end Agrees

/-- What goes on behind a parser that reads. -/
theorem Eager.then (hp : Eager p) (hf : ∀ a, Agrees (f a)) : Eager (p >>= f) := by
  intro ts b rest h
  obtain ⟨a, left, ha, hb⟩ := bind_eq_ok h
  exact Nat.le_trans ((hf a).suffix hb).length_le (hp ha)

/-- A round that is decided by whether a token is accepted. -/
theorem Advances.accept {q : Token → Bool} {yes no : Parser (ForInStep σ)} (hend : q .eof = false)
    (hyes : Agrees yes) (hno : ∀ ts s rest, no ts ≠ .ok (.yield s, rest)) :
    Advances (accept q >>= fun accepted => if accepted then yes else no) := by
  intro ts s rest h
  obtain ⟨accepted, left, haccept, hrun⟩ := bind_eq_ok h
  rw [accept_eq] at haccept
  split at haccept
  · cases haccept
    cases ts with
    | nil => exact absurd ‹q .eof = true› (by simp [hend])
    | cons t more => exact Nat.lt_succ_of_le (hyes.suffix hrun).length_le
  · cases haccept
    exact absurd hrun (hno _ s rest)

end CrudGen.Sql.Parser
