import CrudGen.Proofs.Sql.Layout
import CrudGen.Proofs.Sql.Written

/-!
# Parsers — parentheses in what they read

Elements of a list stand between the commas outside its inner parentheses. What closes what it opens
and holds no comma outside is on one level (`Level`). `Keeps` says under which condition the tokens
that a parser reads are on one level; it holds of parsers one after the other, of choices and of loops
if it holds of their parts.

Main results:

* `outerElements_commaSeparated` — what stands between commas on one level is found there again.
* `Keeps.bind`, `Keeps.iterate` — parsers one after the other, and again and again.
-/

namespace CrudGen.Sql.Parser

-- ---------------------------------------------------------------------------
-- Levels
-- ---------------------------------------------------------------------------

/-- The number of open parentheses behind tokens. There is none if a comma stands outside all of
them, or if one too many is closed. -/
def depthAfter : Nat → List Token → Option Nat
  | depth, [] => some depth
  | depth, t :: rest =>
    match t, depth with
    | .comma, 0 => none
    | .rparen, 0 => none
    | .lparen, _ => depthAfter (depth + 1) rest
    | .rparen, d + 1 => depthAfter d rest
    | _, _ => depthAfter depth rest

/-- Tokens that close what they open, with no comma outside parentheses. -/
def Level (ts : List Token) : Prop :=
  depthAfter 0 ts = some 0

instance (ts : List Token) : Decidable (Level ts) :=
  inferInstanceAs (Decidable (_ = _))

/-- Commas and parentheses. -/
def isMark : Token → Bool
  | .comma | .lparen | .rparen => true
  | _ => false

/-- The elements of a list, up to the parenthesis that closes it: what stands between the commas
outside inner parentheses. `depth` is the number of inner parentheses that are open. -/
def splitOuter : Nat → List Token → List (List Token)
  | _, [] => [[]]
  | depth, t :: rest =>
    match t, depth with
    | .comma, 0 => [] :: splitOuter 0 rest
    | .rparen, 0 => [[]]
    | .lparen, _ => (splitOuter (depth + 1) rest).modifyHead (t :: ·)
    | .rparen, d + 1 => (splitOuter d rest).modifyHead (t :: ·)
    | _, _ => (splitOuter depth rest).modifyHead (t :: ·)

/-- The elements of a list whose opening parenthesis stands before `body`. -/
def outerElements (body : List Token) : List (List Token) :=
  splitOuter 0 body

variable {ts ts' rest : List Token} {t : Token} {depth d e : Nat}

/-- A token that is no mark opens and closes nothing. -/
theorem depthAfter_plain (ht : isMark t = false) :
    depthAfter depth (t :: rest) = depthAfter depth rest := by
  cases t <;> first | rfl | cases ht

/-- A comma counts only outside all parentheses. -/
theorem depthAfter_other (hopen : t ≠ .lparen) (hclose : t ≠ .rparen)
    (hcomma : t = .comma → depth ≠ 0) : depthAfter depth (t :: rest) = depthAfter depth rest := by
  rw [depthAfter]
  · exact hopen
  · exact hcomma
  · exact fun ht => absurd ht hclose
  · exact fun _ ht => absurd ht hclose

/-- Inside a parenthesis, tokens that are no parentheses change nothing. -/
theorem depthAfter_inside (h : ∀ t ∈ ts, t ≠ .lparen ∧ t ≠ .rparen) :
    depthAfter (depth + 1) (ts ++ rest) = depthAfter (depth + 1) rest := by
  induction ts with
  | nil => rfl
  | cons t more ih =>
    obtain ⟨⟨hopen, hclose⟩, hmore⟩ := List.forall_mem_cons.1 h
    rw [List.cons_append, depthAfter_other hopen hclose fun _ => Nat.succ_ne_zero depth]
    exact ih hmore

/-- The depth behind two parts is that behind the second, from the depth behind the first on. -/
theorem depthAfter_append :
    depthAfter depth (ts ++ rest) = (depthAfter depth ts).bind fun d => depthAfter d rest := by
  fun_induction depthAfter depth ts <;> simp_all [depthAfter]

/-- Tokens lead from a parenthesis further inside to one further inside. -/
theorem depthAfter_succ (h : depthAfter depth ts = some d) :
    depthAfter (depth + 1) ts = some (d + 1) := by
  induction ts generalizing depth with
  | nil =>
    cases h
    rfl
  | cons t rest ih =>
    cases t with
    | comma | rparen =>
      cases depth with
      | zero => cases h
      | succ depth => exact ih h
    | _ => exact ih h

/-- Tokens that open and close their parentheses are part of one element. -/
theorem splitOuter_append (h : depthAfter depth ts = some d) (rest : List Token) :
    splitOuter depth (ts ++ rest) = (splitOuter d rest).modifyHead (ts ++ ·) := by
  induction ts generalizing depth with
  | nil =>
    cases h
    change _ = List.modifyHead id _
    rw [List.modifyHead_id]
    rfl
  | cons t more ih =>
    have hnext {depth' : Nat} (hmore : depthAfter depth' more = some d) :
        (splitOuter depth' (more ++ rest)).modifyHead (t :: ·) =
          (splitOuter d rest).modifyHead (t :: more ++ ·) := by
      rw [ih hmore, List.modifyHead_modifyHead]
      rfl
    -- a comma or a bracket within others is no end
    cases t with
    | comma | rparen =>
      cases depth with
      | zero => cases h
      | succ depth => exact hnext h
    | _ => exact hnext h

namespace Level

theorem nil : Level [] :=
  rfl

/-- Parts on one level are so together. -/
theorem append (h : Level ts) (h' : Level ts') : Level (ts ++ ts') := by
  rw [Level, depthAfter_append, h]
  exact h'

/-- A token that is no mark may stand before tokens on one level. -/
theorem plain (ht : isMark t = false) (h : Level ts) : Level (t :: ts) := by
  rw [Level, depthAfter_plain ht]
  exact h

/-- A parenthesis may stand before tokens that close it. -/
theorem group (h : depthAfter 1 ts = some 0) : Level (.lparen :: ts) :=
  h

end Level

/-- **Elements.** What stands between commas, and is on one level, is what the outer commas of the
list part. -/
theorem outerElements_commaSeparated {runs : List (List Token)} (hne : runs ≠ [])
    (h : ∀ run ∈ runs, Level run) (tail : List Token) :
    outerElements (commaSeparated runs ++ .rparen :: tail) = runs := by
  induction runs with
  | nil => exact absurd rfl hne
  | cons run rest ih =>
    obtain ⟨hrun, hrest⟩ := List.forall_mem_cons.1 h
    cases rest with
    | nil =>
      rw [commaSeparated_singleton, outerElements, splitOuter_append hrun]
      simp [splitOuter]
    | cons next more =>
      rw [commaSeparated_cons_cons, List.append_assoc, List.cons_append, outerElements,
        splitOuter_append hrun]
      change List.modifyHead (run ++ ·) ([] :: outerElements _) = _
      rw [ih (List.cons_ne_nil _ _) hrest, List.modifyHead_cons, List.append_nil]

-- ---------------------------------------------------------------------------
-- Parsers
-- ---------------------------------------------------------------------------

variable {α β σ : Type} {P : List Token → Prop} {p : Parser α} {f : α → Parser β}

/-- A condition on tokens in a row that goes over to what stands behind a level part of them. -/
structure Divides (P : List Token → Prop) : Prop where
  left  : ∀ {ts rest}, P (ts ++ rest) → P ts
  right : ∀ {ts rest}, P (ts ++ rest) → Level ts → P rest

/-- What always holds goes over to each part. -/
theorem Divides.always : Divides fun _ => True :=
  ⟨fun _ => trivial, fun _ _ => trivial⟩

/-- What is read of `ts`, up to `left`, is on one level if `P` holds of it, or it is everything. -/
def Taken (P : List Token → Prop) (ts left : List Token) : Prop :=
  left = [] ∨ ∃ taken, ts = taken ++ left ∧ (P taken → Level taken)

theorem Taken.refl (ts : List Token) : Taken P ts ts :=
  .inr ⟨[], rfl, fun _ => .nil⟩

theorem Taken.trans (hP : Divides P) {left : List Token} (h : Taken P ts left)
    (h' : Taken P left rest) : Taken P ts rest := by
  obtain rfl | ⟨taken, rfl, htaken⟩ := h
  · obtain hrest | ⟨taken, hnil, -⟩ := h'
    · exact .inl hrest
    · exact .inl (List.append_eq_nil_iff.1 hnil.symm).2
  · obtain rfl | ⟨taken', rfl, htaken'⟩ := h'
    · exact .inl rfl
    · refine .inr ⟨taken ++ taken', (List.append_assoc _ _ _).symm, fun hall => ?_⟩
      have hlevel := htaken (hP.left hall)
      exact hlevel.append (htaken' (hP.right hall hlevel))

theorem Taken.imp (h : Taken (fun _ => True) ts rest) : Taken P ts rest :=
  h.imp_right fun ⟨taken, hts, htaken⟩ => ⟨taken, hts, fun _ => htaken trivial⟩

/-- The next token, if it is no mark. -/
theorem Taken.token (ht : isMark (front ts) = false) : Taken P ts (ts.drop 1) := by
  cases ts with
  | nil => exact .inl rfl
  | cons t rest => exact .inr ⟨[t], rfl, fun _ => Level.nil.plain ht⟩

/-- A parser whose tokens are on one level if `P` holds of them. -/
def Keeps (P : List Token → Prop) (p : Parser α) : Prop :=
  ∀ ⦃ts a left⦄, p ts = .ok (a, left) → Taken P ts left

/-- What `p` reads from tokens that begin with `t` is on one level if `P` holds of it. -/
def KeepsFrom (P : List Token → Prop) (t : Token) (p : Parser α) : Prop :=
  ∀ ⦃ts a left⦄, front ts = t → p ts = .ok (a, left) → Taken P ts left

namespace Keeps

/-- What holds wherever a parser starts holds behind each token. -/
theorem anywhere (h : Keeps P p) (t : Token) : KeepsFrom P t p :=
  fun _ _ _ _ hp => h hp

theorem imp (h : Keeps (fun _ => True) p) : Keeps P p :=
  fun _ _ _ hp => (h hp).imp

theorem pure (a : α) : Keeps P (Pure.pure a) := by
  rintro ts _ _ ⟨⟩
  exact .refl ts

theorem fails (h : ∀ ts, ∃ e, p ts = .error e) : Keeps P p := by
  intro ts a left hp
  obtain ⟨e, he⟩ := h ts
  rw [he] at hp
  cases hp

theorem refuse (what : String) : Keeps P (Parser.refuse what : Parser α) :=
  fails (refuse_fails what)

/-- What goes on behind a refusal does not matter. -/
theorem refused (what : String) : Keeps P ((Parser.refuse what : Parser α) >>= f) := by
  intro ts b left h
  obtain ⟨a, mid, ha, -⟩ := bind_eq_ok h
  obtain ⟨e, he⟩ := refuse_fails (α := α) what ts
  rw [he] at ha
  cases ha

theorem throw (e : SyntaxError) : Keeps P (MonadExcept.throw e : Parser α) :=
  fails fun _ => ⟨e, rfl⟩

/-- Parsers one after the other keep to their level if each does. -/
theorem bind (hP : Divides P) (hp : Keeps P p) (hf : ∀ a, Keeps P (f a)) : Keeps P (p >>= f) := by
  intro ts b left h
  obtain ⟨a, mid, ha, hb⟩ := bind_eq_ok h
  exact (hp ha).trans hP (hf a hb)

theorem map (hP : Divides P) (hp : Keeps P p) (g : α → β) : Keeps P (g <$> p) :=
  bind hP hp fun a => pure (g a)

theorem discard (hP : Divides P) (hp : Keeps P p) : Keeps P (Functor.discard p) :=
  map hP hp _

theorem ite {c : Prop} [Decidable c] {p q : Parser α} (hp : c → Keeps P p) (hq : ¬ c → Keeps P q) :
    Keeps P (if c then p else q) := by
  split
  · exact hp ‹_›
  · exact hq ‹_›

/-- The next token may be looked at, and what is read then depends on it. -/
theorem look {f : Token → Parser β} (h : ∀ t, KeepsFrom P t (f t)) : Keeps P (current >>= f) :=
  fun ts _ _ hf => h (front ts) rfl hf

theorem peek {f : Token → Parser β} (n : Nat) (h : ∀ t, Keeps P (f t)) :
    Keeps P (Parser.peek n >>= f) :=
  fun ts _ _ hf => h (ts[n]?.getD .eof) hf

/-- A loop keeps to its level if every round does. -/
theorem iterate (hP : Divides P) {step : σ → Parser (ForInStep σ)} (h : ∀ s, Keeps P (step s))
    (s : σ) : Keeps P (Parser.iterate step s) := by
  intro ts a left hrun
  -- the rounds of the loop: each keeps the level, and so do all of them together
  induction s, ts using iterate.induct step with
  | case1 s ts e he =>
    rw [Parser.iterate, he] at hrun
    cases hrun
  | case2 s ts s' rest hdone =>
    rw [Parser.iterate, hdone] at hrun
    cases hrun
    exact h s hdone
  | case3 s ts s' rest hyield hlt ih =>
    rw [Parser.iterate, hyield] at hrun
    simp only [hlt, if_true] at hrun
    exact (h s hyield).trans hP (ih hrun)
  | case4 s ts s' rest hyield hlt =>
    rw [Parser.iterate, hyield] at hrun
    simp only [hlt, if_false] at hrun
    cases hrun
    exact h s hyield

end Keeps

namespace KeepsFrom

theorem ite {c : Prop} [Decidable c] {p q : Parser α} (hp : c → KeepsFrom P t p)
    (hq : ¬ c → KeepsFrom P t q) : KeepsFrom P t (if c then p else q) := by
  split
  · exact hp ‹_›
  · exact hq ‹_›

/-- A token that is no mark is dropped. -/
theorem drop (hP : Divides P) (ht : isMark t = false) {f : Unit → Parser β} (hf : Keeps P (f ())) :
    KeepsFrom P t (Parser.advance >>= f) := by
  intro ts b left hfront h
  exact (Taken.token (hfront ▸ ht)).trans hP (hf h)

/-- To drop a token that is no mark is to stay on the level. -/
theorem advance (ht : isMark t = false) : KeepsFrom P t Parser.advance := by
  rintro ts _ _ hfront ⟨⟩
  exact .token (hfront ▸ ht)

theorem token (ht : isMark t = false) (a : α) : KeepsFrom P t (do Parser.advance; return a) := by
  rintro ts _ _ hfront ⟨⟩
  exact .token (hfront ▸ ht)

end KeepsFrom

end CrudGen.Sql.Parser
