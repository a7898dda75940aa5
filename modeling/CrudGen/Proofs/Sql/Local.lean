import CrudGen.Proofs.Sql.Yields
import CrudGen.Sql.Parser.Statement

/-!
# Parsers — what stands behind what they read

A parser that stops somewhere has seen the tokens up to there and, at most, the next one. `Local`
says so of two continuations: what `p` reads in front of the one, it reads in front of the other.
There is one lemma for each way of putting parsers together.
-/

namespace CrudGen.Sql.Parser

variable {α β σ : Type} {p : Parser α} {f : α → Parser β} {τ τ' : List Token} {Q : Prop}

/-- A parser that reads at least one token, if there is one. -/
def Eager (p : Parser α) : Prop :=
  ∀ ⦃ts a rest⦄, p ts = .ok (a, rest) → rest.length ≤ ts.length - 1

/-- A parser leaves an end of its tokens, and what it leaves of tokens that end in `τ`, it leaves of
those that end in `τ'` instead. Where it stops just before the end, `Q` is asked for. -/
structure Local (τ τ' : List Token) (Q : Prop) (p : Parser α) : Prop where
  suffix : ∀ ⦃ts a rest⦄, p ts = .ok (a, rest) → rest <:+ ts
  moves  : ∀ (before : List Token) ⦃a : α⦄ ⦃left : List Token⦄, (left = [] → Q) →
             p (before ++ τ) = .ok (a, left ++ τ) → p (before ++ τ') = .ok (a, left ++ τ')

-- ---------------------------------------------------------------------------
-- Eager parsers
-- ---------------------------------------------------------------------------

theorem Eager.fails (h : ∀ ts, ∃ e, p ts = .error e) : Eager p := by
  intro ts a rest hp
  obtain ⟨e, he⟩ := h ts
  rw [he] at hp
  cases hp

/-- A refusal is an error, whatever the next token is. -/
theorem refuse_fails (what : String) (ts : List Token) :
    ∃ e, (refuse what : Parser α) ts = .error e := by
  cases ts with
  | nil => exact ⟨_, rfl⟩
  | cons t rest => cases t <;> exact ⟨_, rfl⟩

theorem Eager.refuse (what : String) : Eager (refuse what : Parser α) :=
  .fails (refuse_fails what)

theorem Eager.throw (e : SyntaxError) : Eager (throw e : Parser α) :=
  .fails fun _ => ⟨e, rfl⟩

/-- To go on is to read the next token, if there is one. -/
theorem Eager.advance : Eager advance := by
  intro ts a rest h
  cases h
  exact Nat.le_of_eq List.length_drop

/-- Looking at the next token reads nothing, so what comes then has to be eager. -/
theorem Eager.look {f : Token → Parser β} (hf : ∀ t, Eager (f t)) : Eager (current >>= f) :=
  fun _ _ _ h => hf _ h

theorem Eager.ite {c : Prop} [Decidable c] {p q : Parser α} (hp : Eager p) (hq : Eager q) :
    Eager (if c then p else q) := by
  split
  · exact hp
  · exact hq

/-- What goes before an eager parser may read nothing. -/
theorem Eager.after (hp : Local τ τ' Q p) (hf : ∀ a, Eager (f a)) : Eager (p >>= f) := by
  intro ts b rest h
  obtain ⟨a, left, ha, hb⟩ := bind_eq_ok h
  exact Nat.le_trans (hf a hb) (Nat.sub_le_sub_right (hp.suffix ha).length_le 1)

/-- What goes on behind an eager parser leaves no more than it finds. -/
theorem Eager.before (hp : Eager p) (hf : ∀ a, Local τ τ' Q (f a)) : Eager (p >>= f) := by
  intro ts b rest h
  obtain ⟨a, left, ha, hb⟩ := bind_eq_ok h
  exact Nat.le_trans ((hf a).suffix hb).length_le (hp ha)

-- ---------------------------------------------------------------------------
-- Putting parsers together
-- ---------------------------------------------------------------------------

/-- An end of tokens that is no shorter than `τ` ends in `τ`. -/
theorem append_of_suffix {left rest : List Token} (h : rest ++ τ <:+ left) :
    ∃ mid, left = mid ++ τ ∧ rest.length ≤ mid.length := by
  obtain ⟨mid, hmid⟩ := h
  refine ⟨mid ++ rest, ?_, ?_⟩
  · rw [List.append_assoc, hmid]
  · simp

namespace Local

theorem pure (a : α) : Local τ τ' Q (Pure.pure a) where
  suffix := by
    intro ts b rest h
    cases h
    exact List.suffix_rfl
  moves := by
    intro before b left _ h
    have hsame := congrArg Prod.snd (Except.ok.inj h)
    have hb := congrArg Prod.fst (Except.ok.inj h)
    obtain rfl : before = left := List.append_cancel_right hsame
    obtain rfl : a = b := hb
    rfl

theorem fails (h : ∀ ts, ∃ e, p ts = .error e) : Local τ τ' Q p where
  suffix := by
    intro ts a rest hp
    obtain ⟨e, he⟩ := h ts
    rw [he] at hp
    cases hp
  moves := by
    intro before a left _ hp
    obtain ⟨e, he⟩ := h (before ++ τ)
    rw [he] at hp
    cases hp

theorem refuse (what : String) : Local τ τ' Q (Parser.refuse what : Parser α) :=
  fails (refuse_fails what)

theorem throw (e : SyntaxError) : Local τ τ' Q (MonadExcept.throw e : Parser α) :=
  fails fun _ => ⟨e, rfl⟩

/-- Parsers one after the other stop before the continuation if each does. -/
theorem bind (hp : Local τ τ' Q p) (hf : ∀ a, Local τ τ' Q (f a)) : Local τ τ' Q (p >>= f) where
  suffix := by
    intro ts b rest h
    obtain ⟨a, left, ha, hb⟩ := bind_eq_ok h
    exact ((hf a).suffix hb).trans (hp.suffix ha)
  moves := by
    intro before b left hQ h
    obtain ⟨a, mid, ha, hb⟩ := bind_eq_ok h
    obtain ⟨excess, rfl, hle⟩ := append_of_suffix ((hf a).suffix hb)
    have hexcess : excess = [] → Q := fun hnil => hQ (by simpa [hnil] using hle)
    change Except.bind (p (before ++ τ')) (fun r => f r.1 r.2) = _
    rw [hp.moves before hexcess ha]
    exact (hf a).moves excess hQ hb

theorem map (hp : Local τ τ' Q p) (g : α → β) : Local τ τ' Q (g <$> p) :=
  bind hp fun a => pure (g a)

theorem discard (hp : Local τ τ' Q p) : Local τ τ' Q (Functor.discard p) :=
  map hp _

theorem lift (x : Except SyntaxError α) : Local τ τ' Q (liftM x : Parser α) := by
  cases x with
  | error e => exact fails fun _ => ⟨e, rfl⟩
  | ok a => exact pure a

theorem ite {c : Prop} [Decidable c] {p q : Parser α} (hp : c → Local τ τ' Q p)
    (hq : ¬ c → Local τ τ' Q q) : Local τ τ' Q (if c then p else q) := by
  split
  · exact hp ‹_›
  · exact hq ‹_›

/-- An eager parser does not stop where it starts. -/
theorem ne_of_eager (hp : Eager p) (hτ : τ ≠ []) {a : α} {left : List Token} :
    p τ ≠ .ok (a, left ++ τ) := by
  intro h
  have hle := hp h
  have hpos := List.length_pos_iff.2 hτ
  rw [List.length_append] at hle
  omega

/-- What is decided by the next token. At the very end it goes on, or the two ends decide alike. -/
theorem look {f : Token → Parser β} (hτ : τ ≠ []) (hf : ∀ t, Local τ τ' Q (f t))
    (hfront : Eager (f (front τ)) ∨ f (front τ') = f (front τ)) :
    Local τ τ' Q (current >>= f) where
  suffix := fun ts b rest h => (hf (front ts)).suffix h
  moves := by
    intro before b left hQ h
    cases before with
    | nil =>
      change f (front τ) τ = _ at h
      obtain heager | hsame := hfront
      · exact absurd h (ne_of_eager heager hτ)
      · change f (front τ') τ' = _
        rw [hsame]
        exact (hf (front τ)).moves [] hQ h
    | cons t before => exact (hf t).moves (t :: before) hQ h

/-- What is decided by the next two tokens. -/
theorem lookTwo {f : Token → Token → Parser β} (hf : ∀ t u, Local τ τ' Q (f t u)) (hτ : τ ≠ [])
    (hnone : Eager (f (front τ) (τ[1]?.getD .eof)) ∨
      (Q → f (front τ') (τ'[1]?.getD .eof) = f (front τ) (τ[1]?.getD .eof)))
    (hone : ∀ t, (∀ a left, f t (front τ) (t :: τ) ≠ .ok (a, left ++ τ)) ∨
      f t (front τ') = f t (front τ)) :
    Local τ τ' Q (current >>= fun t => peek 1 >>= f t) where
  suffix := fun ts b rest h => (hf (front ts) (ts[1]?.getD .eof)).suffix h
  moves := by
    intro before b left hQ h
    match before with
    -- none, one or both of the two tokens may stand before the edge
    | [] =>
      change f (front τ) (τ[1]?.getD .eof) τ = _ at h
      obtain heager | hsame := hnone
      · exact absurd h (ne_of_eager heager hτ)
      · have hlocal := hf (front τ) (τ[1]?.getD .eof)
        have hleft : left = [] := by
          have hle := (hlocal.suffix h).length_le
          rw [List.length_append] at hle
          exact List.length_eq_zero_iff.1 (by omega)
        change f (front τ') (τ'[1]?.getD .eof) τ' = _
        rw [hsame (hQ hleft)]
        exact hlocal.moves [] hQ h
    | [t] =>
      change f t (front τ) (t :: τ) = _ at h
      obtain hnever | hsame := hone t
      · exact absurd h (hnever b left)
      · change f t (front τ') (t :: τ') = _
        rw [hsame]
        exact (hf t (front τ)).moves [t] hQ h
    | t :: u :: before => exact (hf t u).moves (t :: u :: before) hQ h

/-- To go on past a token before the continuation. -/
theorem advance (hτ : τ ≠ []) : Local τ τ' Q advance where
  suffix := by
    intro ts a rest h
    cases h
    exact List.drop_suffix 1 ts
  moves := by
    intro before a left _ h
    cases before with
    | nil => exact absurd h (ne_of_eager Eager.advance hτ)
    | cons t before =>
      have hleft : before ++ τ = left ++ τ := congrArg Prod.snd (Except.ok.inj h)
      rw [← List.append_cancel_right hleft]
      rfl

/-- Rounds leave an end of the tokens if each of them does. -/
theorem suffix_iterate {step : σ → Parser (ForInStep σ)} (h : ∀ s, Local τ τ' Q (step s)) {s a : σ}
    {ts rest : List Token} (hrun : Parser.iterate step s ts = .ok (a, rest)) : rest <:+ ts := by
  induction s, ts using iterate.induct step with
  | case1 s ts e he =>
    rw [Parser.iterate, he] at hrun
    cases hrun
  | case2 s ts s' rest' hdone =>
    rw [Parser.iterate, hdone] at hrun
    cases hrun
    exact (h s).suffix hdone
  | case3 s ts s' rest' hyield hlt ih =>
    rw [Parser.iterate, hyield] at hrun
    simp only [hlt, if_true] at hrun
    exact (ih hrun).trans ((h s).suffix hyield)
  | case4 s ts s' rest' hyield hlt =>
    rw [Parser.iterate, hyield] at hrun
    simp only [hlt, if_false] at hrun
    cases hrun
    exact (h s).suffix hyield

/-- A loop does not see the continuation if its rounds do not: a round reads something in front of
the one just when it does in front of the other. -/
theorem iterate {step : σ → Parser (ForInStep σ)} (h : ∀ s, Local τ τ' Q (step s)) (s : σ) :
    Local τ τ' Q (Parser.iterate step s) where
  suffix := fun _ _ _ hrun => suffix_iterate h hrun
  moves := by
    intro before a left hQ hrun
    obtain ⟨ts, hts⟩ : ∃ ts, ts = before ++ τ := ⟨_, rfl⟩
    rw [← hts] at hrun
    -- induction along the repetition: each round leaves an end that still ends in `τ`
    induction s, ts using iterate.induct step generalizing before with
    | case1 s ts e he =>
      rw [Parser.iterate, he] at hrun
      cases hrun
    | case2 s ts s' rest hdone =>
      rw [Parser.iterate, hdone] at hrun
      cases hrun
      rw [hts] at hdone
      rw [Parser.iterate, (h s).moves before hQ hdone]
    | case3 s ts s' rest hyield hlt ih =>
      rw [Parser.iterate, hyield] at hrun
      simp only [hlt, if_true] at hrun
      obtain ⟨excess, rfl, hle⟩ := append_of_suffix (suffix_iterate h hrun)
      have hexcess : excess = [] → Q := fun hnil => hQ (by simpa [hnil] using hle)
      rw [hts] at hyield hlt
      rw [Parser.iterate, (h s).moves before hexcess hyield]
      rw [List.length_append, List.length_append, Nat.add_lt_add_iff_right] at hlt
      simp only [List.length_append, Nat.add_lt_add_iff_right, hlt, if_true]
      exact ih excess hrun rfl
    | case4 s ts s' rest hyield hlt =>
      rw [Parser.iterate, hyield] at hrun
      simp only [hlt, if_false] at hrun
      cases hrun
      rw [hts] at hyield hlt
      rw [Parser.iterate, (h s).moves before hQ hyield]
      rw [List.length_append, List.length_append, Nat.add_lt_add_iff_right] at hlt
      simp only [List.length_append, Nat.add_lt_add_iff_right, hlt, if_false]

end Local

-- ---------------------------------------------------------------------------
-- Both
-- ---------------------------------------------------------------------------

/-- A local parser that reads at least one token, if there is one. -/
structure Consumes (τ τ' : List Token) (Q : Prop) (p : Parser α) : Prop extends
    Local τ τ' Q p where
  eager : Eager p

namespace Consumes

theorem fails (h : ∀ ts, ∃ e, p ts = .error e) : Consumes τ τ' Q p :=
  ⟨.fails h, .fails h⟩

theorem refuse (what : String) : Consumes τ τ' Q (Parser.refuse what : Parser α) :=
  ⟨.refuse what, .refuse what⟩

theorem throw (e : SyntaxError) : Consumes τ τ' Q (MonadExcept.throw e : Parser α) :=
  ⟨.throw e, .throw e⟩

/-- A token before the continuation is consumed. -/
theorem advance (hτ : τ ≠ []) : Consumes τ τ' Q advance :=
  ⟨.advance hτ, .advance⟩

/-- What goes on behind a parser that reads. -/
theorem before (hp : Consumes τ τ' Q p) (hf : ∀ a, Local τ τ' Q (f a)) :
    Consumes τ τ' Q (p >>= f) :=
  ⟨.bind hp.toLocal hf, .before hp.eager hf⟩

/-- What goes before a parser that reads. -/
theorem after (hp : Local τ τ' Q p) (hf : ∀ a, Consumes τ τ' Q (f a)) :
    Consumes τ τ' Q (p >>= f) :=
  ⟨.bind hp fun a => (hf a).toLocal, .after hp fun a => (hf a).eager⟩

theorem ite {c : Prop} [Decidable c] {p q : Parser α} (hp : c → Consumes τ τ' Q p)
    (hq : ¬ c → Consumes τ τ' Q q) : Consumes τ τ' Q (if c then p else q) := by
  split
  · exact hp ‹_›
  · exact hq ‹_›

/-- The next token is the same in front of each continuation, if something is read. -/
theorem look {f : Token → Parser β} (hτ : τ ≠ []) (hf : ∀ t, Consumes τ τ' Q (f t)) :
    Consumes τ τ' Q (current >>= f) :=
  ⟨.look hτ (fun t => (hf t).toLocal) (.inl (hf (front τ)).eager), .look fun t => (hf t).eager⟩

/-- What is decided by the second token. -/
theorem second {f : Token → Parser β} (hτ : τ ≠ []) (hf : ∀ t, Consumes τ τ' Q (f t))
    (hfront : f (front τ') = f (front τ)) : Consumes τ τ' Q (peek 1 >>= f) where
  suffix := fun ts b rest h => (hf (ts[1]?.getD .eof)).suffix h
  moves := by
    intro before b left hQ h
    match before with
    | [] => exact absurd h (Local.ne_of_eager (hf (τ[1]?.getD .eof)).eager hτ)
    | [t] =>
      change f (front τ) (t :: τ) = _ at h
      change f (front τ') (t :: τ') = _
      rw [hfront]
      exact (hf (front τ)).moves [t] hQ h
    | t :: u :: before => exact (hf u).moves (t :: u :: before) hQ h
  eager := fun ts b rest h => (hf (ts[1]?.getD .eof)).eager h

end Consumes

-- ---------------------------------------------------------------------------
-- Repetitions on their way
-- ---------------------------------------------------------------------------

namespace Comes

variable {step : σ → Parser (ForInStep σ)} {s s' s'' : σ} {ts left rest : List Token}

/-- The repetition goes on where its rounds lead. -/
theorem iterate_eq (h : Comes step s ts s' rest) :
    Parser.iterate step s ts = Parser.iterate step s' rest := by
  induction h with
  | refl => rfl
  | round hround hlt _ ih =>
    rw [Parser.iterate, hround, ← ih]
    simp only [hlt, if_true]

/-- A loop on its way leaves an end of the tokens. -/
theorem suffix (hlocal : ∀ s, Local τ τ' Q (step s)) (h : Comes step s ts s' rest) :
    rest <:+ ts := by
  induction h with
  | refl => exact List.suffix_rfl
  | round hround _ _ ih => exact ih.trans ((hlocal _).suffix hround)

/-- A loop on its way comes to the same state in front of another continuation. -/
theorem moves (hlocal : ∀ s, Local τ τ' Q (step s)) {before left : List Token}
    (h : Comes step s (before ++ τ) s' (left ++ τ)) (hQ : left = [] → Q) :
    Comes step s (before ++ τ') s' (left ++ τ') := by
  obtain ⟨ts, hts⟩ : ∃ ts, ts = before ++ τ := ⟨_, rfl⟩
  obtain ⟨rest, hrest⟩ : ∃ rest, rest = left ++ τ := ⟨_, rfl⟩
  rw [← hts, ← hrest] at h
  induction h generalizing before with
  | refl s ts =>
    obtain rfl : before = left := List.append_cancel_right (hts.symm.trans hrest)
    exact .refl _ _
  | @round s s₁ s₂ ts mid rest hround hlt hmore ih =>
    subst hts hrest
    obtain ⟨excess, rfl, hle⟩ := append_of_suffix (hmore.suffix hlocal)
    have hexcess : excess = [] → Q := fun hnil => hQ (by simpa [hnil] using hle)
    refine .round ((hlocal s).moves before hexcess hround) ?_ (ih rfl rfl)
    rw [List.length_append, List.length_append, Nat.add_lt_add_iff_right] at hlt
    rw [List.length_append, List.length_append, Nat.add_lt_add_iff_right]
    exact hlt

end Comes

end CrudGen.Sql.Parser
