import CrudGen.Proofs.Sql.Levels

/-!
# Clauses and entries — parentheses in what is read

A parser that takes a group takes both of its parentheses, and one that drops tokens stops at a comma;
so what is read of an element is on one level. Two readers do not look at what they take: the one of
the words `ON` and `MATCH` takes the next token, and the one of a type stops at the first closing
parenthesis. For these the condition is that no parenthesis stands there.

Main results:

* `keeps_entryFrom`, `keeps_clauses`, `keeps_writtenType` — entries, clauses and types.
-/

namespace CrudGen.Sql.Parser

variable {ts ts' rest : List Token} {t : Token} {depth d e : Nat}
variable {α β σ : Type} {P : List Token → Prop} {p : Parser α} {f : α → Parser β}

-- ---------------------------------------------------------------------------
-- Tokens and names
-- ---------------------------------------------------------------------------

/-- A name is no mark. -/
theorem isMark_of_name {n : String} (h : nameOf? t = some n) : isMark t = false := by
  cases t <;> first | rfl | cases h

/-- A word is no mark. -/
theorem isMark_of_word {w : String} (h : isWord w t = true) : isMark t = false := by
  cases t <;> first | rfl | cases h

/-- None of several words is a mark. -/
theorem isMark_of_words {words : List String} (h : isOneOf words t = true) : isMark t = false := by
  obtain ⟨w, -, hw⟩ := List.any_eq_true.1 h
  exact isMark_of_word hw

/-- What is equal to no mark is none. -/
theorem isMark_of_beq {u : Token} (hu : isMark u = false) (h : (t == u) = true) :
    isMark t = false := by
  rw [beq_iff_eq.1 h, hu]

/-- A choice between tokens that are no marks keeps to its level. -/
theorem keeps_accept {q : Token → Bool} (hq : ∀ t, q t = true → isMark t = false) :
    Keeps P (accept q) :=
  .look fun t => .ite (fun ht => .token (hq t ht) true) fun _ => (Keeps.pure false).anywhere t

theorem keeps_expect (hu : isMark t = false) (what : String) : Keeps P (expect t what) :=
  .look fun t' => .ite (fun ht => .advance (isMark_of_beq hu ht)) fun _ =>
    (Keeps.refuse what).anywhere t'

/-- A name is one token. -/
theorem keeps_name (what : String) : Keeps P (name what) := by
  refine .look fun t => ?_
  split
  · exact .token (isMark_of_name ‹_›) _
  · exact (Keeps.refuse what).anywhere t

/-- More parts of a name are dots and names. -/
theorem keeps_dots (hP : Divides P) {g : σ → String → σ} (what : String) (s : σ) :
    Keeps P (iterate (fun s => do
      if ← accept (· == .dot) then return .yield (g s (← name what))
      return .done s) s) :=
  .iterate hP (fun _ => .bind hP (keeps_accept fun _ => isMark_of_beq rfl) fun _ => .ite
    (fun _ => .bind hP (keeps_name what) fun _ => .pure _) fun _ => .pure _) s

/-- A name with dots keeps to its level. -/
theorem keeps_qualifiedName (hP : Divides P) (what : String) : Keeps P (qualifiedName what) :=
  .bind hP (.bind hP (keeps_name what) fun first => keeps_dots hP what [first]) fun _ => .pure _

/-- An identifier that may be missing. -/
theorem keeps_identifier? : Keeps P identifier? := by
  refine .look fun t => ?_
  split
  · exact .token (t := .ident _) rfl _
  · exact (Keeps.pure none).anywhere _

-- ---------------------------------------------------------------------------
-- Groups
-- ---------------------------------------------------------------------------

/-- The search for a closing parenthesis takes what lies inside, and the parenthesis. -/
theorem depthAfter_afterClosing (h : afterClosing depth ts = some rest) :
    ∃ taken, ts = taken ++ rest ∧ depthAfter (depth + 1) taken = some 0 := by
  fun_induction afterClosing depth ts with
  | case1 => cases h
  | case2 depth more ih =>
    obtain ⟨taken, rfl, htaken⟩ := ih h
    exact ⟨.lparen :: taken, rfl, htaken⟩
  | case3 more =>
    cases h
    exact ⟨[.rparen], rfl, rfl⟩
  | case4 more d ih =>
    obtain ⟨taken, rfl, htaken⟩ := ih h
    exact ⟨.rparen :: taken, rfl, htaken⟩
  | case5 depth t more hopen hclose hinner ih =>
    obtain ⟨taken, rfl, htaken⟩ := ih h
    refine ⟨t :: taken, rfl, ?_⟩
    -- a bracket that closes is one of the two cases before
    have hother : t ≠ .rparen := by
      rintro rfl
      cases depth with
      | zero => exact hclose rfl rfl
      | succ d => exact hinner d rfl rfl
    rw [depthAfter_other hopen hother fun _ => Nat.succ_ne_zero depth]
    exact htaken

/-- A group takes both of its parentheses. -/
theorem keeps_skipParenthesized : Keeps P skipParenthesized := by
  intro ts _ left h
  rw [skipParenthesized] at h
  obtain ⟨_, more, hexpect, hclosing⟩ := bind_eq_ok h
  obtain ⟨inner, rfl⟩ := cons_of_front (front_of_expect hexpect) Token.noConfusion
  cases hexpect
  obtain ⟨taken, rfl, htaken⟩ := depthAfter_afterClosing (afterClosing_of_closing hclosing)
  exact .inr ⟨.lparen :: taken, rfl, fun _ => .group htaken⟩

/-- What is dropped of an element opens and closes its parentheses, unless everything is dropped. -/
theorem depthAfter_fromElementEnd (h : fromElementEnd depth ts ≠ []) :
    ∃ taken, ts = taken ++ fromElementEnd depth ts ∧ depthAfter depth taken = some 0 := by
  fun_induction fromElementEnd depth ts with
  | case1 => exact absurd rfl h
  | case2 | case3 => exact ⟨[], rfl, rfl⟩
  | case4 depth more ih =>
    obtain ⟨taken, htaken, hdepth⟩ := ih h
    exact ⟨.lparen :: taken, congrArg _ htaken, hdepth⟩
  | case5 more d ih =>
    obtain ⟨taken, htaken, hdepth⟩ := ih h
    exact ⟨.rparen :: taken, congrArg _ htaken, hdepth⟩
  | case6 depth t more hopen hcomma hclose hinner ih =>
    obtain ⟨taken, htaken, hdepth⟩ := ih h
    refine ⟨t :: taken, congrArg _ htaken, ?_⟩
    have hother : t ≠ .rparen := by
      rintro rfl
      cases depth with
      | zero => exact hclose rfl rfl
      | succ d => exact hinner d rfl rfl
    rw [depthAfter_other hopen hother hcomma]
    exact hdepth

/-- What is dropped of an element is on one level. -/
theorem keeps_skipElement : Keeps P skipElement := by
  rintro ts _ _ ⟨⟩
  by_cases hne : fromElementEnd 0 ts = []
  · exact .inl hne
  · obtain ⟨taken, htaken, hlevel⟩ := depthAfter_fromElementEnd hne
    exact .inr ⟨taken, htaken, fun _ => hlevel⟩

-- ---------------------------------------------------------------------------
-- Lists of columns
-- ---------------------------------------------------------------------------

/-- Suffixes of a column are groups and words. -/
theorem keeps_skipColumnSuffixes (hP : Divides P) : Keeps P skipColumnSuffixes := by
  refine .iterate hP (fun _ => .look fun t => .ite (fun _ => ?_) fun _ => .ite (fun ht => ?_)
    fun _ => ?_) ()
  · exact (Keeps.bind hP keeps_skipParenthesized fun _ => .pure _).anywhere t
  · exact .token (isMark_of_words ht) _
  · exact (Keeps.pure _).anywhere t

/-- The number of open parentheses of a list of columns behind a step of it. -/
def openAfter : ForInStep (List String) → Nat
  | .done _ => 0
  | .yield _ => 1

/-- A step of a list of columns stays inside its parentheses, unless it closes them. -/
theorem depthAfter_listColumn {columns : List String} {next : ForInStep (List String)}
    (h : listColumn columns ts = .ok (next, rest)) :
    rest = [] ∨ ∃ taken, ts = taken ++ rest ∧ depthAfter 1 taken = some (openAfter next) := by
  -- a name and what may follow it are within one level
  have hcolumn {ts : List Token} (h : (do
      let column ← name "column name"
      skipColumnSuffixes
      return .yield (columns ++ [column]) : Parser (ForInStep (List String))) ts =
        .ok (next, rest)) :
      rest = [] ∨ ∃ taken, ts = taken ++ rest ∧ depthAfter 1 taken = some (openAfter next) := by
    obtain ⟨column, left, hname, hsuffixes⟩ := bind_eq_ok h
    obtain ⟨_, left', hskip, hmade⟩ := bind_eq_ok hsuffixes
    cases hmade
    refine ((keeps_name _ hname).trans .always (keeps_skipColumnSuffixes .always hskip)).imp_right ?_
    rintro ⟨taken, hts, hlevel⟩
    exact ⟨taken, hts, depthAfter_succ (hlevel trivial)⟩
  cases ts with
  | nil => cases h
  | cons t more =>
    cases t with
    -- a bracket or a comma is a token of the list itself
    | rparen | comma =>
      cases h
      exact .inr ⟨[_], rfl, rfl⟩
    | eof => cases h
    | _ =>
      refine hcolumn ?_
      exact h

/-- Columns of a list take the parenthesis that closes it, and hold no other than those they open.
-/
theorem depthAfter_columns {columns columns' : List String}
    (h : iterate listColumn columns ts = .ok (columns', rest)) :
    rest = [] ∨ ∃ taken, ts = taken ++ rest ∧ depthAfter 1 taken = some 0 := by
  have hedge : PlainEdge [.rparen] [.rparen] :=
    plainEdge_of_closes (List.cons_ne_nil _ _) (.rparen []) (.rparen [])
  induction columns, ts using iterate.induct listColumn with
  | case1 columns ts e he =>
    rw [iterate, he] at h
    cases h
  | case2 columns ts found left hdone =>
    rw [iterate, hdone] at h
    cases h
    exact depthAfter_listColumn hdone
  | case3 columns ts found left hyield hlt ih =>
    rw [iterate, hyield] at h
    simp only [hlt, if_true] at h
    obtain rfl | ⟨taken, rfl, htaken⟩ := depthAfter_listColumn hyield
    · obtain hrest | ⟨taken, hnil, -⟩ := ih h
      · exact .inl hrest
      · exact .inl (List.append_eq_nil_iff.1 hnil.symm).2
    · refine (ih h).imp_right ?_
      rintro ⟨taken', rfl, htaken'⟩
      refine ⟨taken ++ taken', (List.append_assoc _ _ _).symm, ?_⟩
      rw [depthAfter_append, htaken]
      exact htaken'
  | case4 columns ts found left hyield hlt =>
    -- a step that drops no token has come to the end
    rw [iterate, hyield] at h
    simp only [hlt, if_false] at h
    cases h
    have hle := (consumes_listColumn (Q := True) hedge.toEdge columns).eager hyield
    exact .inl (List.length_eq_zero_iff.1 (by omega))

/-- A list of columns takes both of its parentheses. -/
theorem keeps_columnList : Keeps P columnList := by
  intro ts columns left h
  rw [columnList] at h
  obtain ⟨_, more, hexpect, hlist⟩ := bind_eq_ok h
  obtain ⟨inner, rfl⟩ := cons_of_front (front_of_expect hexpect) Token.noConfusion
  cases hexpect
  obtain ⟨found, left', hfound, hcheck⟩ := bind_eq_ok hlist
  change (ite _ _ _ : Parser (List String)) left' = _ at hcheck
  split at hcheck
  · cases hcheck
  cases hcheck
  refine (depthAfter_columns hfound).imp_right ?_
  rintro ⟨taken, rfl, htaken⟩
  exact ⟨.lparen :: taken, rfl, fun _ => .group htaken⟩

-- ---------------------------------------------------------------------------
-- References
-- ---------------------------------------------------------------------------

/-- The words that take the token behind them, whatever it is. -/
def takesNext (t : Token) : Bool :=
  t == .keyword .on || t == .keyword .update || t == .keyword .delete || isWord "MATCH" t

/-- Outside parentheses, none of the words that take a token stands before a comma or a
parenthesis. -/
def Orderly (ts : List Token) : Prop :=
  ∀ before t u after, ts = before ++ t :: u :: after → Level before → takesNext t = true →
    isMark u = false

/-- What is orderly is so in each of its parts. -/
theorem divides_orderly : Divides Orderly where
  left {ts rest} h before t u after hts :=
    h before t u (after ++ rest) (by rw [hts]; simp)
  right {ts rest} h hlevel before t u after hrest hbefore :=
    h (ts ++ before) t u after (by rw [hrest]; simp) (hlevel.append hbefore)

/-- An action is words. -/
theorem keeps_referentialAction (hP : Divides P) : Keeps P referentialAction := by
  have hlast {t : Token} (ht : isMark t = false) (action : ReferentialAction) :
      KeepsFrom P t (do advance; return action : Parser _) := .token ht action
  refine .look fun t => .ite (fun ht => hlast (isMark_of_beq rfl ht) _) fun _ =>
    .ite (fun ht => hlast (isMark_of_beq rfl ht) _) fun _ =>
      .ite (fun ht => .drop hP (isMark_of_word ht) (.look fun u => ?_)) fun _ =>
        .ite (fun ht => .drop hP (isMark_of_word ht) (.look fun u => .ite (fun hu =>
          hlast (isMark_of_word hu) _) fun _ => (Keeps.refused _).anywhere u)) fun _ =>
            (Keeps.refused _).anywhere t
  split
  · exact hlast (t := .keyword .null) rfl _
  · exact hlast (t := .keyword .default) rfl _
  · exact (Keeps.refused _).anywhere u

/-- A token that takes the next one is no mark. -/
theorem isMark_of_takesNext (h : takesNext t = true) : isMark t = false := by
  cases t with
  | comma | lparen | rparen => cases h
  | _ => rfl

/-- A word that takes the token behind it, and that token. -/
theorem taken_next (ht : takesNext (front ts) = true) :
    Taken Orderly ts ((ts.drop 1).drop 1) := by
  match ts with
  | [] | [t] => exact .inl rfl
  | t :: u :: rest =>
    refine .inr ⟨[t, u], rfl, fun horderly => (Level.nil.plain ?_).plain (isMark_of_takesNext ht)⟩
    exact horderly [] t u [] rfl .nil ht

/-- The words `ON` and `MATCH` take the next token, which is no mark where the tokens are orderly.
-/
theorem keeps_referenceClause (actions : ReferentialAction × ReferentialAction) :
    Keeps Orderly (referenceClause actions) := by
  have hP := divides_orderly
  have hnext {t : Token} (ht : takesNext t = true) : KeepsFrom Orderly t (do
      advance
      advance
      return .yield actions : Parser (ForInStep (ReferentialAction × ReferentialAction))) := by
    rintro ts _ _ hfront ⟨⟩
    exact taken_next (hfront ▸ ht)
  refine .look fun t => .ite (fun ht => .drop hP (isMark_of_beq rfl ht) (.look fun u => ?_))
    fun _ => .ite (fun ht => hnext ?_) fun _ => .ite (fun ht => ?_) fun _ => ?_
  -- `ON DELETE` or `ON UPDATE` and its action; anything else is refused
  · split
    · exact .drop hP (t := .keyword .delete) rfl
        (.bind hP (keeps_referentialAction hP) fun _ => .pure _)
    · exact .drop hP (t := .keyword .update) rfl
        (.bind hP (keeps_referentialAction hP) fun _ => .pure _)
    · exact (Keeps.refuse _).anywhere u
  -- `MATCH` takes the next token, which an orderly text has not as a bracket
  · rw [takesNext, ht, Bool.or_true]
  · exact .drop hP (isMark_of_words ht)
      (.bind hP (.discard hP (keeps_accept fun _ => isMark_of_words)) fun _ => .pure _)
  · intro ts a left hfront h
    change (if t == .keyword .not && isWord "DEFERRABLE" (ts[1]?.getD .eof) then _ else _ :
      Parser (ForInStep (ReferentialAction × ReferentialAction))) ts = _ at h
    -- `NOT DEFERRABLE` are two tokens, neither of them a bracket
    split at h
    · rename_i hnot
      cases h
      rw [Bool.and_eq_true] at hnot
      exact (Taken.token (hfront ▸ isMark_of_beq rfl hnot.1)).trans hP
        (.token (by rw [front, List.getElem?_drop]; exact isMark_of_word hnot.2))
    · cases h
      exact .refl ts

/-- A reference is a name, a list of columns and clauses. -/
theorem keeps_reference (columns : List String) (constraint : Option String) :
    Keeps Orderly (reference columns constraint) := by
  have hP := divides_orderly
  rw [reference_eq]
  refine .bind hP (keeps_qualifiedName hP _) fun table => .look fun t => ?_
  have hrest (targetColumns : Option (List String)) :
      Keeps Orderly (referenceBehind constraint columns table targetColumns) :=
    .bind hP (.iterate hP keeps_referenceClause _) fun _ => .pure _
  exact (Keeps.ite (fun _ => .bind hP (.map hP keeps_columnList _) fun _ => hrest _)
    fun _ => .bind hP (.pure _) fun _ => hrest _).anywhere t

-- ---------------------------------------------------------------------------
-- Clauses
-- ---------------------------------------------------------------------------

/-- The tokens of a default open and close their parentheses, unless the default goes on to the end.
-/
theorem depthAfter_spanDefault {first : Bool} (h : (spanDefault depth first ts).2 ≠ []) :
    depthAfter depth (spanDefault depth first ts).1 = some 0 := by
  induction ts generalizing depth first with
  | nil => cases depth <;> exact absurd rfl h
  | cons t rest ih =>
    -- within brackets every token belongs to the default, and the level is that of the rest
    cases depth with
    | succ depth => cases t <;> exact ih h
    | zero =>
      have hplain (ht : isMark t = false) (hspan : spanDefault 0 first (t :: rest) =
          if !first && endsDefault t then ([], t :: rest)
          else (t :: (spanDefault 0 false rest).1, (spanDefault 0 false rest).2)) :
          depthAfter 0 (spanDefault 0 first (t :: rest)).1 = some 0 := by
        rw [hspan] at h ⊢
        split
        · rfl
        · rename_i hgoes
          rw [if_neg hgoes] at h
          exact (depthAfter_plain ht).trans (ih h)
      cases t with
      | comma | rparen => rfl
      | lparen => exact ih h
      | _ => exact hplain rfl rfl

/-- A default is on one level. -/
theorem keeps_defaultExpression : Keeps P defaultExpression := by
  intro ts a left h
  obtain ⟨taken, -, hspan, -⟩ := defaultExpression_eq_ok.1 h
  by_cases hleft : left = []
  · exact .inl hleft
  · have happend := spanDefault_append 0 true ts
    have hdepth (h : (spanDefault 0 true ts).2 ≠ []) := depthAfter_spanDefault h
    rw [hspan] at happend hdepth
    exact .inr ⟨taken, happend.symm, fun _ => hdepth hleft⟩

/-- The clause of every keyword but `ON` keeps to its level. -/
theorem keeps_keywordClauseOf (n : String) {k : Keyword} (hk : k ≠ .on) :
    Keeps Orderly (keywordClauseOf n k) := by
  have hP := divides_orderly
  cases k <;> simp only [keywordClauseOf]
  -- each clause is put together from parsers that keep the level
  case on => exact absurd rfl hk
  case primary => exact .bind hP (keeps_expect rfl _) fun _ => .pure _
  case not =>
    exact .look fun t => .ite (fun ht => .token (isMark_of_beq rfl ht) _) fun _ =>
      .ite (fun ht => .token (isMark_of_word ht) _) fun _ => (Keeps.refuse _).anywhere t
  case unique =>
    exact .bind hP (.discard hP (keeps_accept fun _ => isMark_of_beq rfl)) fun _ => .pure _
  case default => exact .bind hP keeps_defaultExpression fun _ => .pure _
  case references => exact .bind hP (keeps_reference _ _) fun _ => .pure _
  case check => exact .bind hP keeps_skipParenthesized fun _ => .pure _
  case collate => exact .bind hP (.discard hP (keeps_qualifiedName hP _)) fun _ => .pure _
  case comment =>
    refine .look fun t => ?_
    split
    · exact .token (t := .str _) rfl _
    · exact (Keeps.pure _).anywhere _
  case constraint => exact .bind hP (.discard hP (keeps_name _)) fun _ => .pure _
  all_goals exact .pure _

/-- The clause that begins with `ON` takes a token behind that word, and a group behind that. -/
theorem keepsFrom_on (n : String) : KeepsFrom Orderly (.keyword .on) (do
    advance
    return some (← keywordClauseOf n .on)) := by
  have hP := divides_orderly
  have hgroup : Keeps Orderly (do
      if (← current) == .lparen then skipParenthesized
      return .skipped : Parser Clause) :=
    .look fun t => (Keeps.ite (fun _ => .bind hP keeps_skipParenthesized fun _ => .pure _)
      fun _ => .pure _).anywhere t
  intro ts a left hfront h
  change (keywordClauseOf n .on >>= fun c => pure (some c)) (ts.drop 1) = _ at h
  obtain ⟨c, rest, hclause, hmade⟩ := bind_eq_ok h
  cases hmade
  obtain ⟨_, mid, hword, hnext⟩ := bind_eq_ok hclause
  obtain ⟨found, hword⟩ := discard_iff.1 hword
  obtain ⟨_, behind, hdrop, hrest⟩ := bind_eq_ok hnext
  cases hdrop
  -- the word behind `ON` is taken if it is `UPDATE` or `DELETE`, and one more in any case
  rw [accept_eq] at hword
  split at hword
  · rename_i hkeyword
    cases hword
    have hnext : Taken Orderly (ts.drop 1) _ := taken_next (by
      rw [Bool.or_eq_true] at hkeyword
      rw [takesNext, Bool.or_eq_true, Bool.or_eq_true, Bool.or_eq_true]
      exact .inl (hkeyword.imp_left .inr))
    exact (Taken.token (hfront ▸ rfl)).trans hP (hnext.trans hP (hgroup hrest))
  · cases hword
    have hnext : Taken Orderly ts _ := taken_next (hfront ▸ rfl)
    exact hnext.trans hP (hgroup hrest)

/-- A clause is a word and what it takes, or a group. -/
theorem keeps_clauseOf (n : String) : Keeps Orderly (clauseOf n) := by
  have hP := divides_orderly
  refine .look fun t => ?_
  unfold clauseFrom
  split
  · exact (Keeps.pure _).anywhere _
  · exact (Keeps.pure _).anywhere _
  · exact (Keeps.pure _).anywhere _
  · rename_i k
    by_cases hk : k = .on
    · rw [hk]
      exact keepsFrom_on n
    · exact .drop hP (t := .keyword k) rfl (.bind hP (keeps_keywordClauseOf n hk) fun _ => .pure _)
  · exact (Keeps.bind hP keeps_skipParenthesized fun _ => .pure _).anywhere _
  · refine .token ?_ _
    cases t <;> first | rfl | contradiction

/-- Clauses one after the other keep to their level. -/
theorem keeps_clauses (d : ColumnDraft) : Keeps Orderly (iterate columnClause d) :=
  .iterate divides_orderly (fun d => columnClause_eq d ▸ .map divides_orderly (keeps_clauseOf _) _) d

-- ---------------------------------------------------------------------------
-- Entries
-- ---------------------------------------------------------------------------

/-- The columns of an index are a list behind an optional method. -/
theorem keeps_indexOf (hP : Divides P) (indexName : Option String) : Keeps P (indexOf indexName) :=
  .bind hP (keeps_accept fun _ => isMark_of_word) fun _ => .ite
    (fun _ => .bind hP (.discard hP (keeps_name _)) fun _ =>
      .bind hP keeps_columnList fun _ => .pure _)
    fun _ => .bind hP keeps_columnList fun _ => .pure _

/-- An index is a name and its columns. -/
theorem keeps_indexBody (hP : Divides P) : Keeps P indexBody := by
  refine .look fun t => ?_
  split
  · exact .ite (fun _ => (keeps_indexOf hP _).anywhere _) fun _ =>
      .drop hP (t := .ident _) rfl (keeps_indexOf hP _)
  · exact (keeps_indexOf hP _).anywhere _

/-- A constraint ends with a list of columns, a reference, or the rest of its element. -/
theorem keeps_tableConstraint (constraint : Option String) :
    Keeps Orderly (tableConstraint constraint) := by
  have hP := divides_orderly
  have hunique (indexName : Option String) : Keeps Orderly (uniqueOf (constraint.or indexName)) :=
    .bind hP keeps_columnList fun _ => .bind hP keeps_skipElement fun _ => .pure _
  have hindex : Keeps Orderly (do return .index (← indexBody) : Parser TableConstraint) :=
    .bind hP (keeps_indexBody hP) fun _ => .pure _
  rw [tableConstraint]
  refine .look fun t => ?_
  -- a word leads to its own clause, each of which keeps the level
  by_cases ht : ∃ k, t = .keyword k
  · obtain ⟨k, rfl⟩ := ht
    cases k <;> simp only [constraintFrom]
    case primary =>
      exact .drop hP rfl (.bind hP (keeps_expect rfl _) fun _ =>
        .bind hP keeps_columnList fun _ => .pure _)
    case unique =>
      refine .drop hP rfl (.bind hP (.discard hP (keeps_accept fun t ht => ?_)) fun _ => ?_)
      · rw [Bool.or_eq_true] at ht
        exact ht.elim (isMark_of_beq rfl) (isMark_of_beq rfl)
      · exact .peek 1 fun _ => .ite (fun _ => .bind hP keeps_identifier? hunique)
          fun _ => hunique _
    case foreign =>
      exact .drop hP rfl (.bind hP (keeps_expect rfl _) fun _ => .bind hP keeps_identifier? fun _ =>
        .bind hP keeps_columnList fun _ => .bind hP (keeps_expect rfl _) fun _ =>
          .bind hP (keeps_reference _ _) fun _ => .pure _)
    case check =>
      exact .drop hP rfl (.bind hP keeps_skipParenthesized fun _ =>
        .bind hP keeps_skipElement fun _ => .pure _)
    case index => exact .drop hP rfl hindex
    case key => exact .drop hP rfl hindex
    all_goals exact (Keeps.refuse _).anywhere _
  · rw [constraintFrom_word (not_exists.1 ht)]
    exact (Keeps.ite (fun _ => .bind hP keeps_skipElement fun _ => .pure _) fun _ =>
      .refuse _).anywhere t

-- ---------------------------------------------------------------------------
-- Types
-- ---------------------------------------------------------------------------

/-- Tokens whose parentheses hold no parentheses. -/
def Flat (ts : List Token) : Prop :=
  ∀ before inner after, ts = before ++ Token.lparen :: (inner ++ Token.rparen :: after) →
    Token.rparen ∉ inner → Token.lparen ∉ inner

/-- What is flat is so in each of its parts. -/
theorem divides_flat : Divides Flat where
  left {ts rest} h before inner after hts :=
    h before inner (after ++ rest) (by rw [hts]; simp)
  right {ts rest} h _ before inner after hrest :=
    h (ts ++ before) inner after (by rw [hrest]; simp)

/-- The arguments of a type end at the first closing parenthesis. -/
theorem typeArguments_eq_ok {args : TypeArguments} (h : typeArguments ts = .ok (args, rest)) :
    ∃ inner, ts = inner ++ .rparen :: rest ∧ .rparen ∉ inner := by
  induction ts generalizing args with
  | nil => cases h
  | cons t more ih =>
    -- the bracket ends the arguments; any other token is one of them
    by_cases ht : t = .rparen
    · rw [ht] at h ⊢
      cases h
      exact ⟨[], rfl, List.not_mem_nil⟩
    · have hmore : ∃ args, typeArguments more = .ok (args, rest) := by
        obtain hends | ⟨e, hspoils⟩ | ⟨add, hadds⟩ := argumentToken t
        · have hend := hends []
          cases t with
          | rparen => exact absurd rfl ht
          | num digits => cases hsize : Text.size? digits <;> simp [typeArguments, hsize] at hend
          | _ => cases hend
        · rw [hspoils] at h
          cases h
        · rw [hadds] at h
          obtain ⟨⟨args, left⟩, hread, hmade⟩ := ok_of_map h
          cases hmade
          exact ⟨args, hread⟩
      obtain ⟨args, hread⟩ := hmore
      obtain ⟨inner, rfl, hinner⟩ := ih hread
      exact ⟨t :: inner, rfl, fun hmem => (List.mem_cons.1 hmem).elim (fun heq => ht heq.symm) hinner⟩

/-- The parameters of a type end at the first closing parenthesis, which is theirs where the tokens
are flat. -/
theorem keepsFrom_typeArguments {f : TypeArguments → Parser β} (hf : ∀ args, Keeps Flat (f args)) :
    KeepsFrom Flat Token.lparen (do
      advance
      f (← (typeArguments : Parser TypeArguments))) := by
  intro ts b left hfront h
  obtain ⟨more, rfl⟩ := cons_of_front hfront Token.noConfusion
  obtain ⟨args, rest, hread, hrest⟩ := bind_eq_ok (show (_ >>= f) more = _ from h)
  obtain ⟨inner, rfl, hclose⟩ := typeArguments_eq_ok hread
  refine Taken.trans divides_flat
    (.inr ⟨Token.lparen :: (inner ++ [Token.rparen]), by simp, fun hflat => ?_⟩) (hf args hrest)
  have hopen : Token.lparen ∉ inner := hflat [] inner [] rfl hclose
  have hinner : depthAfter 1 (inner ++ [Token.rparen]) = depthAfter 1 [Token.rparen] :=
    depthAfter_inside fun t ht => ⟨fun heq => hopen (heq ▸ ht), fun heq => hclose (heq ▸ ht)⟩
  exact Level.group hinner

/-- A suffix of a type is parameters, brackets, or a word. -/
theorem keeps_typeSuffix (w : WrittenType) : Keeps Flat (typeSuffix w) := by
  refine .look fun t => ?_
  split
  · exact keepsFrom_typeArguments fun _ => .pure _
  · exact .ite (fun _ => .token (t := .ident _) rfl _) fun _ => (Keeps.pure _).anywhere _
  · exact .token (t := .brackets) rfl _
  · exact (Keeps.pure _).anywhere _

/-- A type is a name and suffixes. -/
theorem keeps_writtenType (column : String) : Keeps Flat (writtenType column) := by
  have hP := divides_flat
  have hrest (first : String) : Keeps Flat (typeFrom first) :=
    .bind hP (keeps_dots hP (g := fun _ n => n) "type name" first) fun last =>
      .iterate hP keeps_typeSuffix _
  refine .look fun t => ?_
  split
  · exact .drop hP (t := .ident _) rfl (hrest _)
  · exact .drop hP (t := .serial _) rfl (hrest _)
  · exact (Keeps.fails fun ts => ⟨_, rfl⟩).anywhere _

end CrudGen.Sql.Parser
