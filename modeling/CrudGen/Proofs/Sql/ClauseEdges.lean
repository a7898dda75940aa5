import CrudGen.Proofs.Sql.Edges

/-!
# Parsers — edges of clauses

A clause is read in front of one edge as in front of another (`Edge`). Only a reference reads more
than one token ahead, and only it goes on with clauses that are clauses of a column too
(`goesOnWithReference`).

Main results:

* `local_columnClause` — clauses do not see what stands behind the next one.
* `consumes_column` — nor does a column.
-/

namespace CrudGen.Sql.Parser

/-- What follows a reference may go on with it. -/
def goesOnWithReference (ts : List Token) : Bool :=
  front ts == .keyword .on ||
    (front ts == .keyword .not && isWord "DEFERRABLE" (ts[1]?.getD .eof))

variable {α β σ : Type} {τ τ' : List Token} {Q : Prop} (h : Edge τ τ')
include h

-- ---------------------------------------------------------------------------
-- References
-- ---------------------------------------------------------------------------

/-- An action is one word or two, and no edge goes on with it. -/
theorem consumes_referentialAction : Consumes τ τ' Q referentialAction := by
  have hrest (action : ReferentialAction) :
      Consumes τ τ' Q (do advance; return action : Parser _) :=
    consumes_token h action
  refine .look h.ne_nil fun t => .ite (fun _ => hrest _) fun _ => .ite (fun _ => hrest _) fun _ =>
    .ite (fun _ => .before (consumes_advance h) fun _ => ?_) fun _ => .ite (fun _ =>
      .before (consumes_advance h) fun _ => ?_) fun _ => .before (.refuse _) fun _ => (hrest _).toLocal
  · refine (Consumes.look h.ne_nil fun t => ?_).toLocal
    split
    · exact hrest _
    · exact hrest _
    · exact .before (.refuse _) fun _ => (hrest _).toLocal
  · exact (Consumes.look h.ne_nil fun t => .ite (fun _ => hrest _) fun _ =>
      .before (.refuse _) fun _ => (hrest _).toLocal).toLocal

omit h in
/-- Only two tokens together decide about `NOT DEFERRABLE`. -/
theorem referenceClause_eq (actions : ReferentialAction × ReferentialAction) :
    referenceClause actions = current >>= fun t => peek 1 >>= fun u =>
      if t == .keyword .on then do
        advance
        referenceEvent actions
      else if isWord "MATCH" t then do
        advance
        advance
        return .yield actions
      else if isOneOf ["DEFERRABLE", "INITIALLY"] t then do
        advance
        discard <| accept (isOneOf ["DEFERRED", "IMMEDIATE"])
        return .yield actions
      else if t == .keyword .not && isWord "DEFERRABLE" u then do
        advance
        advance
        return .yield actions
      else return .done actions := by
  refine congrArg (bind current) (funext fun t => funext fun ts => ?_)
  change _ = (ite _ _ _ : Parser _) ts
  split
  · rfl
  split
  · rfl
  split
  · rfl
  · rfl

/-- A clause of a reference does not go over the edge, unless the edge goes on with a reference. -/
theorem local_referenceClause (hQ : Q → goesOnWithReference τ' = false)
    (actions : ReferentialAction × ReferentialAction) : Local τ τ' Q (referenceClause actions) := by
  rw [referenceClause_eq]
  have hon : Consumes τ τ' Q (do
      advance
      referenceEvent actions) := by
    refine .before (consumes_advance h) fun _ => (Consumes.look h.ne_nil fun t => ?_).toLocal
    split
    · exact .before (consumes_advance h) fun _ =>
        .bind (consumes_referentialAction h).toLocal fun _ => .pure _
    · exact .before (consumes_advance h) fun _ =>
        .bind (consumes_referentialAction h).toLocal fun _ => .pure _
    · exact .refuse _
  have htwo : Consumes τ τ' Q (do
      advance
      advance
      return .yield actions : Parser (ForInStep (ReferentialAction × ReferentialAction))) :=
    .before (consumes_advance h) fun _ => (consumes_token h _).toLocal
  have htiming : Consumes τ τ' Q (do
      advance
      discard <| accept (isOneOf ["DEFERRED", "IMMEDIATE"])
      return .yield actions : Parser (ForInStep (ReferentialAction × ReferentialAction))) :=
    .before (consumes_advance h) fun _ =>
      .bind (.discard (local_accept_words h (by decide +kernel))) fun _ => .pure _
  refine .lookTwo (fun t u => ?_) h.ne_nil ?_ fun t => ?_
  · exact .ite (fun _ => hon.toLocal) fun _ => .ite (fun _ => htwo.toLocal) fun _ =>
      .ite (fun _ => htiming.toLocal) fun _ => .ite (fun _ => htwo.toLocal) fun _ => .pure _
  · cases hon? : front τ == .keyword .on with
    | true => exact .inl hon.eager
    | false => ?_
    cases hmatch : isWord "MATCH" (front τ) with
    | true => exact .inl htwo.eager
    | false => ?_
    cases htime : isOneOf ["DEFERRABLE", "INITIALLY"] (front τ) with
    | true => exact .inl htiming.eager
    | false => ?_
    cases hnot : front τ == .keyword .not && isWord "DEFERRABLE" (τ[1]?.getD .eof) with
    | true => exact .inl htwo.eager
    | false => ?_
    -- the reference stops at the one continuation, and at the other
    refine .inr fun hq => ?_
    have hstops := Bool.or_eq_false_iff.1 (hQ hq)
    rw [hstops.1, hstops.2, h.word "MATCH" (by decide +kernel) hmatch,
      h.words (by decide +kernel) htime]
  · cases hnot : t == .keyword .not && isWord "DEFERRABLE" (front τ) with
    | true =>
      refine .inl fun a left hrun => ?_
      rw [Bool.and_eq_true, beq_iff_eq] at hnot
      obtain ⟨rfl, hdeferrable⟩ := hnot
      have hrest : τ.drop 1 = left ++ τ := congrArg Prod.snd (Except.ok.inj hrun)
      have hlength := congrArg List.length hrest
      have hpos := List.length_pos_iff.2 h.ne_nil
      rw [List.length_drop, List.length_append] at hlength
      omega
    | false =>
      right
      have hnot' : (t == .keyword .not && isWord "DEFERRABLE" (front τ')) = false := by
        rw [Bool.and_eq_false_iff] at hnot ⊢
        exact hnot.imp_right (h.word "DEFERRABLE" (by decide +kernel))
      rw [hnot']

omit h in
/-- A reference is a table, a list of columns if there is one, and what stands behind both. -/
theorem reference_eq (columns : List String) (constraint : Option String) :
    reference columns constraint = qualifiedName "referenced table" >>= fun table =>
      current >>= fun t =>
        if t == .lparen then (some <$> columnList) >>= referenceBehind constraint columns table
        else pure none >>= referenceBehind constraint columns table :=
  rfl

/-- A reference is a name at least, and its clauses end before the edge. -/
theorem consumes_reference (hQ : Q → goesOnWithReference τ' = false) (columns : List String)
    (constraint : Option String) : Consumes τ τ' Q (reference columns constraint) := by
  rw [reference_eq]
  refine .before (consumes_qualifiedName h _) fun table => .look h.ne_nil (fun t => ?_) (.inr ?_)
  · have hrest (targetColumns : Option (List String)) :
        Local τ τ' Q (referenceBehind constraint columns table targetColumns) :=
      .bind (.iterate (fun actions => local_referenceClause h hQ actions) _) fun _ => .pure _
    exact .ite (fun _ => .bind (.map (consumes_columnList h).toLocal _) fun _ => hrest _)
      fun _ => .bind (.pure _) fun _ => hrest _
  · have hparen : (front τ' == .lparen) = false := by simpa using h.ne_lparen.2
    have hparen' : (front τ == .lparen) = false := by simpa using h.ne_lparen.1
    rw [hparen, hparen']

-- ---------------------------------------------------------------------------
-- Defaults
-- ---------------------------------------------------------------------------

omit h in
/-- The tokens of a default and what is left of them are all of them. -/
theorem spanDefault_append (depth : Nat) (first : Bool) (ts : List Token) :
    (spanDefault depth first ts).1 ++ (spanDefault depth first ts).2 = ts := by
  fun_induction spanDefault depth first ts <;> simp_all

omit h in
/-- No default begins where an element ends. -/
theorem spanDefault_of_closes {first : Bool} {ts : List Token} (hts : Closes ts) :
    spanDefault 0 first ts = ([], ts) := by
  cases ts with
  | nil => cases first <;> rfl
  | cons t rest => obtain rfl | rfl := hts t rfl <;> cases first <;> rfl

omit h in
/-- A default that has begun ends at a word that ends defaults. -/
theorem spanDefault_of_endsDefault {ts : List Token} (hts : endsDefault (front ts) = true) :
    spanDefault 0 false ts = ([], ts) := by
  cases ts with
  | nil => cases hts
  | cons t rest =>
    change endsDefault t = true at hts
    have hcomma : t ≠ .comma := by
      rintro rfl
      cases hts
    have hrparen : t ≠ .rparen := by
      rintro rfl
      cases hts
    have hlparen : t ≠ .lparen := by
      rintro rfl
      cases hts
    simp [spanDefault, hcomma, hrparen, hlparen, hts]

/-- What a token is in a default: it stops it or belongs to it. -/
inductive DefaultToken (depth : Nat) (first : Bool) (t : Token) : Prop
  | stops (h : ∀ rest, spanDefault depth first (t :: rest) = ([], t :: rest)) (hdepth : depth = 0)
      (ht : t = .comma ∨ t = .rparen ∨ first = false ∧ endsDefault t = true)
  | belongs (inner : Nat) (h : ∀ rest, spanDefault depth first (t :: rest) =
      (t :: (spanDefault inner false rest).1, (spanDefault inner false rest).2))

omit h in
/-- What a token does to a default that is being read, whichever it is. -/
theorem defaultToken (depth : Nat) (first : Bool) (t : Token) : DefaultToken depth first t := by
  -- inside brackets every token belongs to the default
  cases depth with
  | succ depth => exact .belongs _ fun rest => rfl
  | zero =>
    cases hclose : t == .comma || t == .rparen with
    | true =>
      refine .stops (fun rest => ?_) rfl ?_
      · rw [spanDefault, hclose, if_pos rfl]
      · rw [Bool.or_eq_true, beq_iff_eq, beq_iff_eq] at hclose
        exact hclose.imp_right .inl
    | false =>
      cases hopen : t == .lparen with
      | true =>
        refine .belongs 1 fun rest => ?_
        rw [spanDefault, hclose, hopen]
        rfl
      | false =>
        cases hend : !first && endsDefault t with
        | true =>
          refine .stops (fun rest => ?_) rfl (.inr (.inr ?_))
          · rw [spanDefault, hclose, hopen, hend]
            rfl
          · simpa using hend
        | false =>
          refine .belongs 0 fun rest => ?_
          rw [spanDefault, hclose, hopen, hend]
          rfl

/-- A default that ends before the edge does so with any continuation. -/
theorem spanDefault_moves {depth : Nat} {first : Bool} {before taken left : List Token}
    (hspan : spanDefault depth first (before ++ τ) = (taken, left ++ τ)) :
    spanDefault depth first (before ++ τ') = (taken, left ++ τ') := by
  induction before generalizing depth first taken with
  | nil =>
    -- nothing of the default is left before the edge, so its first token must end it
    obtain ⟨t, rest, rfl⟩ := List.exists_cons_of_ne_nil h.ne_nil
    obtain ⟨hstop, rfl, ht⟩ | ⟨inner, hbelongs⟩ := defaultToken depth first t
    · rw [List.nil_append, hstop] at hspan
      have htaken : [] = taken := congrArg Prod.fst hspan
      have hleft : t :: rest = left ++ t :: rest := congrArg Prod.snd hspan
      rw [← htaken, List.self_eq_append_left.1 hleft]
      obtain hcomma | hrparen | ⟨rfl, hend⟩ := ht
      · exact spanDefault_of_closes (h.closes (.inl hcomma))
      · exact spanDefault_of_closes (h.closes (.inr hrparen))
      -- a token that belongs would leave fewer tokens than the edge has
      · exact (h.default hend).elim spanDefault_of_closes spanDefault_of_endsDefault
    · have hleft := congrArg Prod.snd ((hbelongs rest).symm.trans hspan)
      have happend := spanDefault_append inner false rest
      rw [hleft] at happend
      have := congrArg List.length happend
      simp only [List.length_append, List.length_cons] at this
      omega
  | cons t before ih =>
    obtain ⟨hstop, -, -⟩ | ⟨inner, hbelongs⟩ := defaultToken depth first t
    -- a token that stops the default does so on either side of the edge
    · rw [List.cons_append, hstop] at hspan ⊢
      have htaken : [] = taken := congrArg Prod.fst hspan
      have hleft : (t :: before) ++ τ = left ++ τ := congrArg Prod.snd hspan
      rw [← htaken, ← List.append_cancel_right hleft]
      rfl
    · rw [List.cons_append, hbelongs] at hspan ⊢
      obtain ⟨rfl, hleft⟩ := Prod.mk.inj hspan
      have hmoved := ih (Prod.ext rfl hleft)
      rw [hmoved]

omit h in
/-- A default is what `spanDefault` takes, unless that is nothing. -/
theorem defaultExpression_eq_ok {ts rest : List Token} {expression : String} :
    defaultExpression ts = .ok (expression, rest) ↔
      ∃ taken, taken ≠ [] ∧ spanDefault 0 true ts = (taken, rest) ∧ expression = render taken := by
  have hrun : defaultExpression ts = (do
      if (spanDefault 0 true ts).1.isEmpty then refuse "default value"
      return render (spanDefault 0 true ts).1 : Parser String) (spanDefault 0 true ts).2 := rfl
  rw [hrun]
  obtain ⟨taken, left⟩ := spanDefault 0 true ts
  -- without a token the default is refused
  cases taken with
  | nil =>
    refine ⟨fun hok => ?_, ?_⟩
    · obtain ⟨_, _, hrefused, -⟩ := bind_eq_ok hok
      obtain ⟨e, he⟩ := refuse_fails (α := PUnit) "default value" left
      rw [he] at hrefused
      cases hrefused
    · rintro ⟨taken, hne, hspan, -⟩
      exact absurd (congrArg Prod.fst hspan).symm hne
  | cons t more =>
    refine ⟨fun hok => ?_, ?_⟩
    · cases hok
      exact ⟨t :: more, List.cons_ne_nil t more, rfl, rfl⟩
    · rintro ⟨taken, -, hspan, rfl⟩
      cases hspan
      rfl

/-- A default is a token at least. -/
theorem consumes_defaultExpression : Consumes τ τ' Q defaultExpression := by
  refine ⟨⟨fun ts a rest hrun => ?_, fun before a left _ hrun => ?_⟩, fun ts a rest hrun => ?_⟩
  · obtain ⟨taken, -, hspan, -⟩ := defaultExpression_eq_ok.1 hrun
    have happend := spanDefault_append 0 true ts
    rw [hspan] at happend
    exact ⟨taken, happend⟩
  · obtain ⟨taken, hne, hspan, rfl⟩ := defaultExpression_eq_ok.1 hrun
    exact defaultExpression_eq_ok.2 ⟨taken, hne, spanDefault_moves h hspan, rfl⟩
  · obtain ⟨taken, hne, hspan, -⟩ := defaultExpression_eq_ok.1 hrun
    have happend := spanDefault_append 0 true ts
    rw [hspan] at happend
    have := congrArg List.length happend
    have := List.length_pos_iff.2 hne
    simp only [List.length_append] at *
    omega

-- ---------------------------------------------------------------------------
-- Clauses
-- ---------------------------------------------------------------------------

/-- What a keyword stands for is read without seeing the edge. Only a reference asks for more. -/
theorem local_keywordClauseOf (n : String) (k : Keyword)
    (hQ : k = .references → Q → goesOnWithReference τ' = false) :
    Local τ τ' Q (keywordClauseOf n k) := by
  cases k <;> simp only [keywordClauseOf]
  case primary => exact .bind (consumes_expect h _ _).toLocal fun _ => .pure _
  case not =>
    exact (Consumes.look h.ne_nil fun t => .ite (fun _ => consumes_token h _) fun _ =>
      .ite (fun _ => consumes_token h _) fun _ => .refuse _).toLocal
  case null => exact .pure _
  case unique =>
    -- `UNIQUE` may take a `KEY`, which does not stand behind the edge
    refine .bind (.discard (local_accept h fun _ => ?_)) fun _ => .pure _
    have hfresh := h.fresh'
    rw [beq_eq_false_iff_ne]
    rintro hfront
    rw [hfront] at hfresh
    cases hfresh
  case default => exact .bind (consumes_defaultExpression h).toLocal fun _ => .pure _
  case references => exact .bind (consumes_reference h (hQ rfl) _ _).toLocal fun _ => .pure _
  case check => exact .bind (consumes_skipParenthesized h).toLocal fun _ => .pure _
  case collate => exact .bind (.discard (consumes_qualifiedName h _).toLocal) fun _ => .pure _
  case comment =>
    -- `COMMENT` takes a text only, and an edge does not start with one
    refine .look h.ne_nil (fun t => ?_) (.inr ?_)
    · split
      · exact (consumes_token h _).toLocal
      · exact .pure _
    · have hfresh := h.fresh
      have hfresh' := h.fresh'
      refine Eq.trans (b := (pure .skipped : Parser Clause)) ?_ ?_
      · cases hfront : front τ' <;> simp_all [goesOn]
      · cases hfront : front τ <;> simp_all [goesOn]
  case increment => exact .pure _
  case constraint => exact .bind (.discard (consumes_name h _).toLocal) fun _ => .pure _
  case on =>
    -- `ON` takes `UPDATE` or `DELETE` and perhaps a bracket, none of which starts an edge
    have hhead : goesOn (front τ') = false := h.fresh'
    refine .bind (.discard (local_accept h fun _ => ?_)) fun _ => .bind (consumes_advance h).toLocal
      fun _ => .look h.ne_nil (fun t => .ite (fun _ => .bind (consumes_skipParenthesized h).toLocal
        fun _ => .pure _) fun _ => .pure _) (.inr ?_)
    · cases hfront : front τ' with
      | keyword k => cases k <;> first | rfl | (rw [hfront] at hhead; cases hhead)
      | _ => rfl
    · have hparen : (front τ' == .lparen) = false := by simpa using h.ne_lparen.2
      have hparen' : (front τ == .lparen) = false := by simpa using h.ne_lparen.1
      rw [hparen, hparen']
  all_goals exact .pure _

/-- A clause that is one is a token at least. -/
theorem consumes_clauseFrom (n : String) {t : Token} (ht : t ≠ .comma ∧ t ≠ .rparen ∧ t ≠ .eof)
    (hQ : t = .keyword .references → Q → goesOnWithReference τ' = false) :
    Consumes τ τ' Q (clauseFrom n t) := by
  cases t with
  | comma => exact absurd rfl ht.1
  | rparen => exact absurd rfl ht.2.1
  | eof => exact absurd rfl ht.2.2
  | keyword k =>
    exact .before (consumes_advance h) fun _ =>
      .bind (local_keywordClauseOf h n k fun hk => hQ (congrArg Token.keyword hk)) fun _ => .pure _
  | lparen => exact .before (consumes_skipParenthesized h) fun _ => .pure _
  | _ => exact consumes_token h _

omit h in
/-- There is no clause before what ends an element. -/
theorem clauseFrom_none (n : String) {t : Token} (ht : ¬ (t ≠ .comma ∧ t ≠ .rparen ∧ t ≠ .eof)) :
    clauseFrom n t = pure none := by
  cases t <;> first | rfl | simp at ht

/-- A clause does not see the edge, whatever its first token is. -/
theorem local_clauseFrom (n : String) (t : Token)
    (hQ : t = .keyword .references → Q → goesOnWithReference τ' = false) :
    Local τ τ' Q (clauseFrom n t) := by
  by_cases ht : t ≠ .comma ∧ t ≠ .rparen ∧ t ≠ .eof
  · exact (consumes_clauseFrom h n ht hQ).toLocal
  · rw [clauseFrom_none n ht]
    exact .pure _

theorem local_clauseOf (n : String) (hQ : Q → goesOnWithReference τ' = false) :
    Local τ τ' Q (clauseOf n) := by
  refine .look h.ne_nil (fun t => local_clauseFrom h n t fun _ => hQ) ?_
  by_cases ht : front τ ≠ .comma ∧ front τ ≠ .rparen ∧ front τ ≠ .eof
  · exact .inl (consumes_clauseFrom h n ht fun _ => hQ).eager
  · -- what ends an element for the one continuation ends it for the other
    refine .inr ((clauseFrom_none n fun ht' => ?_).trans (clauseFrom_none n ht).symm)
    have hclose : front τ = .comma ∨ front τ = .rparen := by
      have hsome := h.some
      simp_all only [not_and_or, not_not, ne_eq, or_false]
    have hcloses := h.closes hclose
    cases τ' with
    | nil => exact ht'.2.2 rfl
    | cons t rest => exact (hcloses t rfl).elim ht'.1 ht'.2.1

theorem local_columnClause (d : ColumnDraft) (hQ : Q → goesOnWithReference τ' = false) :
    Local τ τ' Q (columnClause d) :=
  columnClause_eq d ▸ .map (local_clauseOf h _ hQ) _

/-- A column is its name at least, and its last clause ends before the edge. -/
theorem consumes_column (dialect : Dialect) (table : String)
    (hQ : Q → goesOnWithReference τ' = false) : Consumes τ τ' Q (column dialect table) :=
  .before (consumes_name h _) fun _ => .bind (consumes_writtenType h _).toLocal fun _ => .bind
    (.iterate (fun d => local_columnClause h d hQ) _) fun _ => .pure _

end CrudGen.Sql.Parser
