import CrudGen.Proofs.Sql.Composition
import CrudGen.Proofs.Sql.ElementKinds
import CrudGen.Proofs.Sql.Identity

/-!
# Columns — without their default

A column is its name, its type and its clauses one behind the other (`ColumnTo`). When a `DEFAULT`
is taken out, the clauses around it say what they said before, unless the one before it is a
reference and what follows goes on with that.

Main results:

* `column_iff` — a column is read as its name, its type and its clauses.
* `exists_defaultedColumn` — every column with a default can be taken apart at its last one.
* `DefaultedColumn.entry_whole`, `DefaultedColumn.entry_bare` — what such a column is with its
  default, and without it.
-/

namespace CrudGen.Sql.Parser

variable {dialect : Dialect} {table n : String} {w : WrittenType} {ts left rest τ τ' : List Token}
  {cs cs' : List Clause} {c : ColumnDefinition}

-- ---------------------------------------------------------------------------
-- Columns up to a clause
-- ---------------------------------------------------------------------------

/-- Tokens that begin a column `n` of type `w`, and go on with clauses up to `rest`. -/
def ColumnTo (n : String) (w : WrittenType) (ts : List Token) (cs : List Clause)
    (rest : List Token) : Prop :=
  nameOf? (front ts) = some n ∧
    ∃ left, writtenType n (ts.drop 1) = .ok (w, left) ∧ Clauses n left cs rest

theorem column_iff : column dialect table ts = .ok (c, rest) ↔
    ∃ n w cs, ColumnTo n w ts cs rest ∧ clauseOf n rest = .ok (none, rest) ∧
      c = columnOf dialect table n w cs := by
  constructor
  · intro h
    rw [column] at h
    obtain ⟨n, left, hn, h⟩ := bind_eq_ok h
    obtain ⟨w, left', hw, h⟩ := bind_eq_ok h
    obtain ⟨d, left'', hd, h⟩ := bind_eq_ok h
    cases h
    -- a name, a type and clauses, of which the last is followed by none
    obtain ⟨hname, rfl⟩ := name_cases hn
    obtain ⟨cs, hcs, hend, rfl⟩ := iterate_columnClause_iff.1 hd
    exact ⟨n, w, cs, ⟨hname, left', hw, hcs⟩, hend, rfl⟩
  · rintro ⟨n, w, cs, ⟨hname, left, hw, hcs⟩, hend, rfl⟩
    cases ts with
    | nil => cases hname
    | cons t more =>
      have hname : nameOf? t = some n := hname
      have hw : writtenType n more = .ok (w, left) := hw
      have hclauses : iterate columnClause (.start dialect table n w) left =
          .ok (cs.foldl Clause.apply (.start dialect table n w), rest) :=
        iterate_columnClause_iff.2 ⟨cs, hcs, hend, rfl⟩
      rw [column, bind_of_ok (name_eq_ok hname), bind_of_ok hw, bind_of_ok hclauses]
      rfl

/-- Where tokens may stop at all, they may stop before the end of all tokens. -/
theorem Edge.toNil (h : Edge τ τ') : Edge τ [] where
  some := h.some
  fresh := h.fresh
  fresh' := rfl
  closes _ := .nil
  default _ := .inl .nil
  type _ := rfl
  word _ _ _ := rfl

namespace ColumnTo

theorem append (h : ColumnTo n w ts cs left) (h' : Clauses n left cs' rest) :
    ColumnTo n w ts (cs ++ cs') rest := by
  obtain ⟨hname, left', hw, hcs⟩ := h
  exact ⟨hname, left', hw, hcs.append h'⟩

/-- A name and a type are read first. -/
theorem exists_cons (hedge : Edge τ τ') {before : List Token} (h : ColumnTo n w (before ++ τ) cs τ) :
    ∃ t u more mid, before = t :: u :: more ∧ nameOf? t = some n ∧
      writtenType n (u :: more ++ τ) = .ok (w, mid ++ τ) ∧ Clauses n (mid ++ τ) cs τ := by
  obtain ⟨hname, left, hw, hcs⟩ := h
  obtain ⟨mid, rfl⟩ := hcs.suffix
  have hle := (consumes_writtenType (Q := True) hedge n).eager hw
  have hpos := List.length_pos_iff.2 hedge.ne_nil
  rw [List.length_append, List.length_drop, List.length_append] at hle
  match before with
  | [] | [_] =>
    simp only [List.length_nil, List.length_cons] at hle
    omega
  | t :: u :: more => exact ⟨t, u, more, mid, rfl, hname, hw, hcs⟩

/-- A column is read up to one continuation as up to another one, if the last clause before them is
no reference or does not go on with the other. -/
theorem moves (hedge : Edge τ τ') {before : List Token} (h : ColumnTo n w (before ++ τ) cs τ)
    (hlast : (∀ c ∈ cs.getLast?, c.reference? = none) ∨ goesOnWithReference τ' = false) :
    ColumnTo n w (before ++ τ') cs τ' := by
  obtain ⟨t, u, more, mid, rfl, hname, hw, hcs⟩ := h.exists_cons hedge
  have hw' : writtenType n (u :: more ++ τ') = .ok (w, mid ++ τ') :=
    (consumes_writtenType (Q := True) hedge n).toLocal.moves _ (fun _ => trivial) hw
  exact ⟨hname, mid ++ τ', hw', hcs.moves hedge hlast⟩

end ColumnTo

-- ---------------------------------------------------------------------------
-- Elements
-- ---------------------------------------------------------------------------

/-- A parenthesis behind a type opens its arguments. -/
theorem writtenType_open (n : String) (u : Token) : ∃ e, writtenType n [u, .lparen] = .error e := by
  have hword (m : String) : ∃ e, typeFrom m [.lparen] = .error e := by
    have hpart : iterate typePart m [.lparen] = .ok (m, [.lparen]) := by
      rw [iterate]
      rfl
    refine ⟨.endOfStatement, ?_⟩
    rw [typeFrom, bind_of_ok hpart, iterate]
    rfl
  cases u with
  | ident m | serial m => exact hword m
  | _ => exact ⟨_, rfl⟩

/-- A column is a column before another continuation. -/
theorem ColumnTo.elementKind_moves (hedge : Edge τ τ') {before : List Token}
    (h : ColumnTo n w (before ++ τ) cs τ) (hkind : elementKind (before ++ τ) = .column) :
    elementKind (before ++ τ') = .column := by
  obtain ⟨t, u, more, mid, rfl, -, hw, -⟩ := h.exists_cons hedge
  have hfresh : (front τ' == .lparen) = false := by simpa using hedge.ne_lparen.2
  have hbegins (hnot : beginsIndex (u :: more ++ τ) = false) :
      beginsIndex (u :: more ++ τ') = false := by
    rw [beginsIndex_eq, Bool.or_eq_false_iff, Bool.and_eq_false_iff] at hnot ⊢
    refine hnot.imp_right fun hrest => hrest.imp_right fun hrest => ?_
    match more with
    | [] =>
      have hsecond (σ : List Token) : (u :: [] ++ σ)[1]?.getD .eof = front σ := rfl
      rw [hsecond, Bool.or_eq_false_iff] at hrest ⊢
      rw [hfresh]
      exact ⟨hedge.word "USING" (by decide +kernel) hrest.1, rfl⟩
    | [v] =>
      have hsecond (σ : List Token) : (u :: [v] ++ σ)[1]?.getD .eof = v := rfl
      -- the arguments of a type do not end behind the parenthesis that opens them
      have hparen : (v == .lparen) = false := by
        rw [beq_eq_false_iff_ne]
        rintro rfl
        have hend : writtenType n [u, .lparen] = .ok (w, mid ++ []) :=
          (consumes_writtenType (Q := True) hedge.toNil n).toLocal.moves [u, .lparen]
            (fun _ => trivial) hw
        obtain ⟨e, he⟩ := writtenType_open n u
        rw [he] at hend
        cases hend
      rw [hsecond, hparen] at hrest ⊢
      exact hrest
    | _ :: _ :: _ => exact hrest
  have hindex (hkind : (if beginsIndex (u :: more ++ τ) then ElementKind.leading else .column) =
      .column) :
      (if beginsIndex (u :: more ++ τ') then ElementKind.leading else .column) = .column := by
    split at hkind
    · cases hkind
    · rename_i hnot
      rw [hbegins (by simpa using hnot)]
      rfl
  cases t with
  | keyword k =>
    cases k with
    | index | key => exact hindex hkind
    | constraint => exact absurd hkind (constraintKind_ne_column (front (more ++ τ)))
    | _ => exact hkind
  | _ => exact hkind

-- ---------------------------------------------------------------------------
-- Defaults
-- ---------------------------------------------------------------------------

theorem stops_spanDefault (depth : Nat) (first : Bool) (ts : List Token) :
    Closes (spanDefault depth first ts).2 ∨
      endsDefault (front (spanDefault depth first ts).2) = true := by
  induction ts generalizing depth first with
  | nil => cases depth <;> exact .inl .nil
  | cons t more ih =>
    obtain ⟨hstop, -, ht⟩ | ⟨inner, hbelongs⟩ := defaultToken depth first t
    · rw [hstop]
      obtain rfl | rfl | ⟨-, hends⟩ := ht
      · exact .inl (.comma more)
      · exact .inl (.rparen more)
      · exact .inr hends
    · rw [hbelongs]
      exact ih inner false

theorem fresh_of_stops (h : Closes τ ∨ endsDefault (front τ) = true) :
    goesOn (front τ) = false ∧ goesOnWithType (front τ) = false ∧
      ∀ w, Text.sameName "GENERATED" w = false → isWord w (front τ) = false := by
  have hend : front τ = .eof ∨ front τ = .comma ∨ front τ = .rparen ∨
      endsDefault (front τ) = true := by
    obtain h | h := h
    · cases τ with
      | nil => exact .inl rfl
      | cons t more => exact .inr ((h t rfl).imp_right .inl)
    · exact .inr (.inr (.inr h))
  generalize front τ = t at hend
  -- what ends an expression is the end, a comma, a bracket, a keyword or `GENERATED`
  obtain rfl | rfl | rfl | hends := hend
  · exact ⟨rfl, rfl, fun _ _ => rfl⟩
  · exact ⟨rfl, rfl, fun _ _ => rfl⟩
  · exact ⟨rfl, rfl, fun _ _ => rfl⟩
  · cases t with
    | keyword k => cases k <;> first | exact ⟨rfl, rfl, fun _ _ => rfl⟩ | cases hends
    | ident s =>
      exact ⟨rfl, goesOnWithType_generated hends, fun w hw => (isWord_ident hends).trans hw⟩
    | _ => cases hends

/-- A default may be left out: what ends it ends what stands before it. -/
theorem edge_default (ts : List Token) (h : Closes τ ∨ endsDefault (front τ) = true) :
    Edge (.keyword .default :: ts) τ where
  some := Token.noConfusion
  fresh := rfl
  fresh' := (fresh_of_stops h).1
  closes hcloses := hcloses.elim Token.noConfusion Token.noConfusion
  default hends := Bool.noConfusion hends
  type _ := (fresh_of_stops h).2.1
  word w hw _ := (fresh_of_stops h).2.2 w hw

/-- What ends a default ends it as the end of an element does. -/
theorem edge_of_stops (h : Closes τ ∨ endsDefault (front τ) = true) (hsome : front τ ≠ .eof)
    (hτ' : Closes τ') : Edge τ τ' where
  some := hsome
  fresh := (fresh_of_stops h).1
  fresh' := (fresh_of_stops (.inl hτ')).1
  closes _ := hτ'
  default _ := .inl hτ'
  type _ := (fresh_of_stops (.inl hτ')).2.1
  word w hw _ := (fresh_of_stops (.inl hτ')).2.2 w hw

/-- The clause of a default is its keyword and what `spanDefault` takes behind it. -/
theorem clauseOf_default_iff {expression : String} :
    clauseOf n ts = .ok (some (.default expression), rest) ↔
      ∃ taken left, ts = .keyword .default :: left ∧ taken ≠ [] ∧
        spanDefault 0 true left = (taken, rest) ∧ expression = render taken := by
  constructor
  · intro h
    have hread : YieldsAt (clauseOf n) ts fun c? rest => c? = some (.default expression) →
        ∃ taken left, ts = .keyword .default :: left ∧ taken ≠ [] ∧
          spanDefault 0 true left = (taken, rest) ∧ expression = render taken := by
      refine .look fun t ht => ?_
      unfold clauseFrom
      split
      · exact .pure nofun
      · exact .pure nofun
      · exact .pure nofun
      -- the first token is the word, and no other clause gives a default
      · rename_i k
        by_cases hk : k = .default
        · subst hk
          obtain ⟨left, rfl⟩ := cons_of_front ht Token.noConfusion
          refine .bind fun _ left' hleft => .bind fun c left'' hc => .pure ?_
          rintro ⟨⟩
          cases hleft
          obtain ⟨e, left''', he, hmade⟩ := bind_eq_ok hc
          cases hmade
          obtain ⟨taken, hne, hspan, rfl⟩ := defaultExpression_eq_ok.1 he
          exact ⟨taken, left, rfl, hne, hspan, rfl⟩
        · refine .bind fun _ left _ => .bind fun c left' hc => .pure ?_
          rintro ⟨⟩
          have hnot := yields_keywordClauseOf (P := fun c => ∀ e, c ≠ .default e) n k
            (fun h => absurd h hk) (fun _ _ => nofun) fun c hc _ => hc
          exact absurd rfl (hnot _ _ _ hc expression)
      · exact .bind fun _ _ _ => .pure nofun
      · refine .bind fun _ _ _ => .pure fun h => ?_
        split at h <;> cases h
    exact hread _ _ h rfl
  -- the word and a non-empty expression are read as the clause
  · rintro ⟨taken, left, rfl, hne, hspan, rfl⟩
    change (keywordClauseOf n .default >>= fun c => pure (some c)) left = _
    rw [keywordClauseOf, bind_assoc, bind_of_ok (defaultExpression_eq_ok.2 ⟨taken, hne, hspan, rfl⟩)]
    rfl

/-- A column of a table, taken apart at its last default. -/
structure DefaultedColumn (dialect : Dialect) (table : String) where
  name : String
  type : WrittenType
  /-- What stands before the default: the name, the type and earlier clauses. -/
  before : List Token
  earlier : List Clause
  expression : List Token
  after : List Token
  later : List Clause
  kind : elementKind
    (before ++ Token.keyword .default :: (expression ++ (after ++ [Token.rparen]))) = .column
  opens : ColumnTo name type
    (before ++ Token.keyword .default :: (expression ++ (after ++ [Token.rparen]))) earlier
    (Token.keyword .default :: (expression ++ (after ++ [Token.rparen])))
  nonempty : expression ≠ []
  spans : spanDefault 0 true (expression ++ (after ++ [Token.rparen])) =
    (expression, after ++ [Token.rparen])
  ends : Clauses name (after ++ [Token.rparen]) later [Token.rparen]
  last : ∀ c ∈ later, ∀ expression, c ≠ .default expression

namespace DefaultedColumn

variable (x : DefaultedColumn dialect table)

def tokens : List Token :=
  x.before ++ Token.keyword .default :: (x.expression ++ x.after)

/-- The column without the default. -/
def tokensWithout : List Token :=
  x.before ++ x.after

/-- What stands behind the default does not go on with a reference before it. -/
def Separable : Prop :=
  (∀ c ∈ x.earlier.getLast?, c.reference? = none) ∨
    goesOnWithReference (x.after ++ [Token.rparen]) = false

/-- What the column is without the default. -/
def definition : ColumnDefinition :=
  columnOf dialect table x.name x.type (x.earlier ++ x.later)

/-- A default changes a column in the same way before later clauses as behind them. -/
theorem foldl_default (expression : String) {cs : List Clause}
    (h : ∀ c ∈ cs, ∀ e, c ≠ .default e) (d : ColumnDraft) :
    (Clause.default expression :: cs).foldl Clause.apply d =
      (cs.foldl Clause.apply d).change (Column.withDefault expression) := by
  induction cs generalizing d with
  | nil => rfl
  | cons c rest ih =>
    rw [List.forall_mem_cons] at h
    have hcomm : c.apply ((Clause.default expression).apply d) =
        (Clause.default expression).apply (c.apply d) := by
      cases c with
      | default e => exact absurd rfl (h.1 e)
      | _ => rfl
    rw [List.foldl_cons, List.foldl_cons, hcomm]
    exact ih h.2 (c.apply d)

theorem entry_whole : entry dialect table (x.tokens ++ [Token.rparen]) =
    .ok (.column { x.definition with
      column := x.definition.column.withDefault (render x.expression) }, [Token.rparen]) := by
  have htokens : x.tokens ++ [Token.rparen] =
      x.before ++ Token.keyword .default :: (x.expression ++ (x.after ++ [Token.rparen])) := by
    simp [tokens]
  have hdefault : clauseOf x.name
      (Token.keyword .default :: (x.expression ++ (x.after ++ [Token.rparen]))) =
      .ok (some (.default (render x.expression)), x.after ++ [Token.rparen]) :=
    clauseOf_default_iff.2 ⟨x.expression, _, rfl, x.nonempty, x.spans, rfl⟩
  have hcs := x.opens.append (.cons hdefault x.ends)
  have hcolumn : column dialect table _ = .ok (_, [Token.rparen]) :=
    column_iff.2 ⟨x.name, x.type, _, hcs, clauseOf_closes (.rparen []), rfl⟩
  rw [htokens, entry_column_iff.2 ⟨x.kind, hcolumn⟩, columnOf, List.foldl_append,
    foldl_default _ x.last,
    definition, columnOf, List.foldl_append]
  rfl

theorem stops :
    Closes (x.after ++ [Token.rparen]) ∨ endsDefault (front (x.after ++ [Token.rparen])) = true := by
  have hstops := stops_spanDefault 0 true (x.expression ++ (x.after ++ [Token.rparen]))
  rwa [x.spans] at hstops

/-- The expression goes as far before the end of an element. -/
theorem spans_closes (hτ : Closes τ) :
    spanDefault 0 true (x.expression ++ τ) = (x.expression, τ) := by
  have hsome : front (x.after ++ [Token.rparen]) ≠ Token.eof := by
    intro hfront
    obtain hcloses | hends := x.stops
    · cases hafter : x.after with
      | nil =>
        rw [hafter] at hfront
        cases hfront
      | cons t more =>
        rw [hafter] at hfront hcloses
        obtain rfl : t = Token.eof := hfront
        obtain h | h := hcloses Token.eof rfl <;> cases h
    · rw [hfront] at hends
      cases hends
  have hedge := edge_of_stops x.stops hsome hτ
  have hspans : spanDefault 0 true (x.expression ++ (x.after ++ [Token.rparen])) =
      (x.expression, [] ++ (x.after ++ [Token.rparen])) := x.spans
  exact spanDefault_moves hedge hspans

theorem entry_bare (h : x.Separable) : entry dialect table (x.tokensWithout ++ [Token.rparen]) =
    .ok (.column x.definition, [Token.rparen]) := by
  have hedge := edge_default (x.expression ++ (x.after ++ [Token.rparen])) x.stops
  have hcolumn : column dialect table (x.before ++ (x.after ++ [Token.rparen])) =
      .ok (x.definition, _) :=
    column_iff.2 ⟨x.name, x.type, _, (x.opens.moves hedge h).append x.ends,
      clauseOf_closes (.rparen []), rfl⟩
  rw [tokensWithout, List.append_assoc]
  exact entry_column_iff.2 ⟨x.opens.elementKind_moves hedge x.kind, hcolumn⟩

/-- The column as an element of its table. -/
def whole : Element dialect table :=
  ⟨x.tokens, [.column { x.definition with
    column := x.definition.column.withDefault (render x.expression) }],
    .cons x.entry_whole (.nil _)⟩

/-- The column without the default as an element of its table. -/
def bare (h : x.Separable) : Element dialect table :=
  ⟨x.tokensWithout, [.column x.definition], .cons (x.entry_bare h) (.nil _)⟩

end DefaultedColumn

theorem Clauses.split (h : Clauses n ts (cs ++ cs') rest) :
    ∃ left, Clauses n ts cs left ∧ Clauses n left cs' rest := by
  induction cs generalizing ts with
  | nil => exact ⟨ts, .nil ts, h⟩
  | cons c more ih =>
    cases h with
    | cons hfirst hmore =>
      obtain ⟨left, hcs, hcs'⟩ := ih hmore
      exact ⟨left, .cons hfirst hcs, hcs'⟩

theorem exists_last_default (h : ∃ expression, .default expression ∈ cs) :
    ∃ earlier expression later, cs = earlier ++ .default expression :: later ∧
      ∀ c ∈ later, ∀ e, c ≠ .default e := by
  induction cs with
  | nil =>
    obtain ⟨_, h⟩ := h
    cases h
  | cons c rest ih =>
    by_cases hrest : ∃ expression, .default expression ∈ rest
    · obtain ⟨earlier, expression, later, rfl, hlast⟩ := ih hrest
      exact ⟨c :: earlier, expression, later, rfl, hlast⟩
    · have hlast : ∀ c ∈ rest, ∀ e, c ≠ .default e := fun c hc e he => hrest ⟨e, he ▸ hc⟩
      obtain ⟨expression, h⟩ := h
      obtain rfl | h := List.mem_cons.1 h
      · exact ⟨[], expression, rest, rfl, hlast⟩
      · exact absurd ⟨expression, h⟩ hrest

/-- **Defaults.** Every column with a default can be taken apart at its last one. -/
theorem exists_defaultedColumn {x : Element dialect table} (hx : x.entries = [.column c])
    (hdefault : c.column.default ≠ none) : ∃ y : DefaultedColumn dialect table, y.whole = x := by
  have hentry := Element.entry_of_single hx (.rparen [])
  obtain ⟨hkind, hcolumn⟩ := entry_column_iff.1 hentry
  obtain ⟨n, w, cs, ⟨hname, left, hw, hcs⟩, -, rfl⟩ := column_iff.1 hcolumn
  have hsome : ∃ expression, .default expression ∈ cs := by
    by_contra hnone
    have hno : ∀ c ∈ cs, ∀ e, c ≠ .default e := fun c hc e he => hnone ⟨e, he ▸ hc⟩
    exact hdefault ((default_foldl hno _).trans rfl)
  obtain ⟨earlier, _, later, rfl, hlast⟩ := exists_last_default hsome
  obtain ⟨mid, hearlier, hmore⟩ := hcs.split
  cases hmore with
  | @cons _ _ _ rest _ hfirst hlater =>
    obtain ⟨expression, behind, rfl, hne, hspan, rfl⟩ := clauseOf_default_iff.1 hfirst
    -- each reader leaves an end of the element
    obtain ⟨after, rfl⟩ := hlater.suffix
    have happend := spanDefault_append 0 true behind
    rw [hspan] at happend
    obtain rfl : expression ++ (after ++ [Token.rparen]) = behind := happend
    have htype := (consumes_writtenType (Q := True) edge_comma n).suffix hw
    obtain ⟨before, hbefore⟩ := hearlier.suffix.trans (htype.trans (List.drop_suffix 1 _))
    have hto : ColumnTo n w (x.tokens ++ [Token.rparen]) earlier _ := ⟨hname, left, hw, hearlier⟩
    rw [← hbefore] at hkind hto
    let y : DefaultedColumn dialect table :=
      ⟨n, w, before, earlier, expression, after, later, hkind, hto, hne, hspan, hlater, hlast⟩
    refine ⟨y, ?_⟩
    have htokens : y.whole.tokens = x.tokens := by
      refine List.append_cancel_right (?_ : _ ++ [Token.rparen] = _ ++ [Token.rparen])
      rw [← hbefore]
      simp [y, DefaultedColumn.whole, DefaultedColumn.tokens]
    have hentries : y.whole.entries = x.entries := by
      have hread := y.entry_whole
      rw [show y.tokens = x.tokens from htokens, hentry] at hread
      rw [hx]
      exact congrArg (fun r => [r.1]) (Except.ok.inj hread).symm
    obtain ⟨tokens, entries, reads⟩ := x
    cases htokens
    cases hentries
    rfl

end CrudGen.Sql.Parser
