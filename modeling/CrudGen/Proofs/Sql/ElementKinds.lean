import CrudGen.Proofs.Sql.ClauseRuns
import CrudGen.Proofs.Sql.KeptLevels

/-!
# Tables — kinds of elements

The first tokens of an element say of what kind it is. Columns, elements that begin with a word of
their own, and constraints that drop what stands behind them are read up to the end of the element,
so they are one entry of the table. A primary key, a reference and an index end with what they say.
What stands behind them is read as an element of its own.

Main results:

* `entryOf_entry` — what an entry is, and from which tokens it is read.
* `Element.fits` — the entries of an element of each kind.
* `Element.level` — an element that is one entry holds no comma outside parentheses.
-/

namespace CrudGen.Sql.Parser

variable {dialect : Dialect} {table : String} {ts rest left : List Token} {t : Token} {e : Entry}
  {es : List Entry}

-- ---------------------------------------------------------------------------
-- Kinds
-- ---------------------------------------------------------------------------

/-- What an element of a table is, as its first tokens say. -/
inductive ElementKind where
  | empty
  | column
  /-- An element that says nothing about columns. -/
  | skipped
  /-- A constraint that drops what stands behind it. -/
  | whole
  /-- A constraint that ends with what it says. -/
  | leading
  deriving DecidableEq, Repr, Inhabited

/-- The kind of a constraint that begins with `t`. -/
def constraintKind (t : Token) : ElementKind :=
  match t with
  | .keyword .unique | .keyword .check => .whole
  | t => if isWord "EXCLUDE" t then .whole else .leading

/-- A constraint drops what is behind it or ends with what it says. -/
theorem constraintKind_cases (t : Token) :
    constraintKind t = .whole ∨ constraintKind t = .leading := by
  unfold constraintKind
  split
  · exact .inl rfl
  · exact .inl rfl
  · split
    · exact .inl rfl
    · exact .inr rfl

/-- The kind of an element. -/
def elementKind : List Token → ElementKind
  | [] => .empty
  | t :: rest =>
    match t with
    | .keyword .constraint => constraintKind (front (rest.drop 1))
    | .keyword .primary | .keyword .unique | .keyword .foreign | .keyword .check => constraintKind t
    | .keyword .index | .keyword .key => if beginsIndex rest then .leading else .column
    | t => if isOneOf skippedElements t then .skipped else .column

/-- What closes an element does not change its kind. -/
theorem elementKind_append (hts : ts ≠ []) : elementKind (ts ++ [Token.rparen]) = elementKind ts := by
  cases ts with
  | nil => exact absurd rfl hts
  | cons t more =>
    have hindex : beginsIndex (more ++ [Token.rparen]) = beginsIndex more := by
      rw [beginsIndex_eq, beginsIndex_eq]
      rcases more with _ | ⟨_, _ | ⟨_, _ | ⟨_, _⟩⟩⟩
      case cons.cons.cons => rfl
      all_goals simp [front, isIdent, isWord]
    have hnamed : constraintKind (front ((more ++ [Token.rparen]).drop 1)) =
        constraintKind (front (more.drop 1)) := by
      rcases more with _ | ⟨_, _ | _⟩ <;> rfl
    simp only [List.cons_append, elementKind, hindex, hnamed]

-- ---------------------------------------------------------------------------
-- Entries
-- ---------------------------------------------------------------------------

/-- An entry that is read from tokens, up to `left`. -/
inductive EntryOf (dialect : Dialect) (table : String) : List Token → Entry → List Token → Prop
  | column {ts left : List Token} {c : ColumnDefinition} (hkind : elementKind ts = .column)
      (h : column dialect table ts = .ok (c, left)) : EntryOf dialect table ts (.column c) left
  | skipped {ts : List Token} (hkind : elementKind ts = .skipped) :
      EntryOf dialect table ts .skipped (fromElementEnd 0 ts)
  /-- Before a constraint stands nothing, or what names it. -/
  | constraint {n : Option String} {before more left : List Token} {t : Token}
      {k : TableConstraint} (hbefore : Level before)
      (hkind : elementKind (before ++ t :: more) = constraintKind t)
      (h : constraintFrom n t (t :: more) = .ok (k, left)) :
      EntryOf dialect table (before ++ t :: more) (.constraint k) left

/-- What is read as an entry, by the kind of its element. -/
theorem entryOf_entry (h : entry dialect table ts = .ok (e, left)) :
    EntryOf dialect table ts e left := by
  obtain ⟨t, more, rfl⟩ : ∃ t more, ts = t :: more :=
    List.exists_cons_of_length_pos (Nat.lt_of_le_of_lt (Nat.zero_le _) (length_entry h))
  have hcolumn (hkind : elementKind (t :: more) = .column)
      (h : columnEntry dialect table (t :: more) = .ok (e, left)) :
      EntryOf dialect table (t :: more) e left := by
    unfold columnEntry at h
    obtain ⟨c, left', hc, hmade⟩ := bind_eq_ok h
    cases hmade
    exact .column hkind hc
  -- with or without a name in front, the constraint is read from its own word on
  have hconstraint {n : Option String} (before : List Token) {more' : List Token} {t' : Token}
      (hbefore : Level before) (hkind : elementKind (before ++ t' :: more') = constraintKind t')
      (h : (do return .constraint (← tableConstraint n) : Parser Entry) (t' :: more') =
        .ok (e, left)) : EntryOf dialect table (before ++ t' :: more') e left := by
    obtain ⟨k, left', hk, hmade⟩ := bind_eq_ok h
    cases hmade
    rw [tableConstraint] at hk
    exact .constraint hbefore hkind hk
  -- an index is read where its word is followed by a name or a bracket
  have hindex (hkind : constraintKind t = .leading)
      (hindex : elementKind (t :: more) = if beginsIndex more then .leading else .column)
      (hfrom : constraintFrom none t = (do advance; return .index (← indexBody)))
      (h : keyOrColumn dialect table (t :: more) = .ok (e, left)) :
      EntryOf dialect table (t :: more) e left := by
    change (if beginsIndex more then _ else _ : Parser Entry) (t :: more) = _ at h
    split at h
    · rename_i hbegins
      obtain ⟨_, left', hadvance, hbody⟩ := bind_eq_ok h
      obtain ⟨i, left'', hi, hmade⟩ := bind_eq_ok hbody
      cases hmade
      rw [if_pos hbegins] at hindex
      have hread : constraintFrom none t (t :: more) = .ok (.index i, left) := by
        rw [hfrom, bind_of_ok hadvance, bind_of_ok hi]
        rfl
      exact .constraint .nil (hindex.trans hkind.symm) hread
    · rename_i hbegins
      rw [if_neg hbegins] at hindex
      exact hcolumn hindex h
  change entryFrom dialect table t (t :: more) = _ at h
  unfold entryFrom at h
  -- the first token decides, as it does for the kind
  split at h
  · obtain ⟨_, left', hadvance, hnamed⟩ := bind_eq_ok h
    cases hadvance
    obtain ⟨n, left'', hn, hrest⟩ := bind_eq_ok hnamed
    obtain ⟨hname, rfl⟩ := name_cases hn
    obtain _ | ⟨u, _ | ⟨t', more'⟩⟩ := more
    · cases hname
    · cases hrest
    · exact hconstraint [.keyword .constraint, u]
        ((Level.nil.plain (isMark_of_name hname)).plain rfl) rfl hrest
  · exact hconstraint [] .nil rfl h
  · exact hconstraint [] .nil rfl h
  · exact hconstraint [] .nil rfl h
  · exact hconstraint [] .nil rfl h
  · exact hindex rfl rfl rfl h
  · exact hindex rfl rfl rfl h
  · have hkind : elementKind (t :: more) =
        if isOneOf skippedElements t then .skipped else .column := by
      cases t with
      | keyword k => cases k <;> first | rfl | contradiction
      | _ => rfl
    unfold wordOrColumn at h
    split at h
    · rename_i hword
      rw [if_pos hword] at hkind
      cases h
      exact .skipped hkind
    · rename_i hword
      rw [if_neg hword] at hkind
      exact hcolumn hkind h

/-- A constraint is no column. -/
theorem constraintKind_ne_column (t : Token) : constraintKind t ≠ .column := by
  obtain h | h := constraintKind_cases t <;> rw [h] <;> exact ElementKind.noConfusion

/-- An element is a column if its first tokens say so. -/
theorem entry_column_iff {c : ColumnDefinition} :
    entry dialect table ts = .ok (.column c, left) ↔
      elementKind ts = .column ∧ column dialect table ts = .ok (c, left) := by
  constructor
  · intro h
    cases entryOf_entry h with
    | column hkind hc => exact ⟨hkind, hc⟩
  · rintro ⟨hkind, hc⟩
    have hentry : columnEntry dialect table ts = .ok (.column c, left) := by
      rw [columnEntry, bind_of_ok hc]
      rfl
    cases ts with
    | nil => cases hkind
    | cons t more =>
      -- a key is a column where it does not begin an index
      have hindex (hkind : (if beginsIndex more then ElementKind.leading else .column) = .column) :
          keyOrColumn dialect table (t :: more) = .ok (.column c, left) := by
        change (ite (beginsIndex more = true) _ _ : Parser Entry) (t :: more) = _
        split at hkind
        · cases hkind
        · rename_i hbegins
          rw [if_neg hbegins]
          exact hentry
      have hword (hkind : (if isOneOf skippedElements t then ElementKind.skipped else .column) =
          .column) : wordOrColumn dialect table t (t :: more) = .ok (.column c, left) := by
        unfold wordOrColumn
        split at hkind
        · cases hkind
        · rename_i hskipped
          rw [if_neg hskipped]
          exact hentry
      change entryFrom dialect table t (t :: more) = _
      cases t with
      -- the words of constraints begin constraints, and never columns
      | keyword k =>
        cases k with
        | constraint => exact absurd hkind (constraintKind_ne_column (front (more.drop 1)))
        | primary => exact absurd hkind (constraintKind_ne_column (.keyword .primary))
        | unique => exact absurd hkind (constraintKind_ne_column (.keyword .unique))
        | foreign => exact absurd hkind (constraintKind_ne_column (.keyword .foreign))
        | check => exact absurd hkind (constraintKind_ne_column (.keyword .check))
        | index | key => exact hindex hkind
        | _ => exact hword hkind
      | _ => exact hword hkind

-- ---------------------------------------------------------------------------
-- Ends
-- ---------------------------------------------------------------------------

/-- Tokens that begin no entry. -/
def AtEnd (ts : List Token) : Prop :=
  front ts = .comma ∨ front ts = .rparen ∨ front ts = .eof

/-- The end of an element is a comma, a parenthesis, or the end of the tokens. -/
theorem atEnd_fromElementEnd (depth : Nat) (ts : List Token) : AtEnd (fromElementEnd depth ts) := by
  fun_induction fromElementEnd depth ts with
  | case1 => exact .inr (.inr rfl)
  | case2 => exact .inl rfl
  | case3 => exact .inr (.inl rfl)
  | case4 _ _ ih | case5 _ _ ih | case6 _ _ _ _ _ _ _ ih => exact ih

/-- Whatever follows a part that drops the rest of an element, the element has ended. -/
theorem yieldsAt_skipElement {α : Type} (a : α) (ts : List Token) :
    YieldsAt (do skipElement; return a) ts fun _ left => AtEnd left := by
  rintro _ _ ⟨⟩
  exact atEnd_fromElementEnd 0 ts

/-- Clauses end where the element does. -/
theorem atEnd_of_clauseOf {n : String} (h : clauseOf n ts = .ok (none, rest)) : AtEnd ts := by
  have hread : YieldsAt (clauseOf n) ts fun c? _ => c? = none → AtEnd ts := by
    refine .look fun t ht => ?_
    unfold clauseFrom
    split
    · exact .pure fun _ => .inl ht
    · exact .pure fun _ => .inr (.inl ht)
    · exact .pure fun _ => .inr (.inr ht)
    · exact .bind fun _ _ _ => .bind fun _ _ _ => .pure nofun
    · exact .bind fun _ _ _ => .pure nofun
    · exact .bind fun _ _ _ => .pure nofun
  exact hread _ _ h rfl

/-- A column has the name that it begins with, and goes on to the end of its element. -/
theorem atEnd_column {c : ColumnDefinition} (h : column dialect table ts = .ok (c, left)) :
    AtEnd left ∧ nameOf? (front ts) = some c.column.name := by
  rw [column] at h
  obtain ⟨n, afterName, hname, htyped⟩ := bind_eq_ok h
  obtain ⟨w, afterType, -, hclauses⟩ := bind_eq_ok htyped
  obtain ⟨d, left', hrun, hmade⟩ := bind_eq_ok hclauses
  cases hmade
  obtain ⟨cs, -, hend, rfl⟩ := iterate_columnClause_iff.1 hrun
  refine ⟨atEnd_of_clauseOf hend, ?_⟩
  rw [(name_cases hname).1, Clause.name_foldl]
  rfl

/-- A constraint that drops what is behind it ends where the element does. -/
theorem atEnd_constraintFrom {n : Option String} {k : TableConstraint}
    (hkind : constraintKind t = .whole) (h : constraintFrom n t ts = .ok (k, left)) : AtEnd left := by
  have hread : YieldsAt (constraintFrom n t) ts fun _ left => AtEnd left := by
    -- a word leads to the clause of its own; any other token is left to `constraintFrom_word`
    by_cases ht : ∃ w, t = .keyword w
    · obtain ⟨w, rfl⟩ := ht
      cases w with
      | unique =>
        have hcolumns (indexName : Option String) (ts : List Token) :
            YieldsAt (uniqueOf (n.or indexName)) ts fun _ left => AtEnd left :=
          .bind fun _ left _ => yieldsAt_skipElement _ left
        refine .bind fun _ _ _ => .bind fun _ _ _ => .bind fun t left _ => ?_
        change YieldsAt (if t == .lparen then _ else _ : Parser TableConstraint) left _
        split
        · exact .bind fun _ _ _ => hcolumns _ _
        · exact hcolumns _ _
      | check => exact .bind fun _ _ _ => .bind fun _ left _ => yieldsAt_skipElement _ left
      | _ => cases hkind
    -- what is neither named nor a constraint is passed over to its end, or refused
    · rw [constraintFrom_word (not_exists.1 ht)]
      split
      · exact yieldsAt_skipElement _ ts
      · intro _ _ hrefused
        obtain ⟨e, he⟩ := refuse_fails (α := TableConstraint) "constraint" ts
        rw [he] at hrefused
        cases hrefused
  exact hread k left h

/-- Behind the end of an element, no entry of it is read. -/
theorem Entries.eq_nil (h : Entries dialect table ts es rest) (hend : AtEnd ts) :
    es = [] ∧ ts = rest := by
  cases h with
  | nil => exact ⟨rfl, rfl⟩
  | cons hfirst _ =>
    -- at its end an element is empty or a column without a name
    have hkind : elementKind ts = .empty ∨ elementKind ts = .column := by
      cases ts with
      | nil => exact .inl rfl
      | cons t more =>
        obtain rfl | rfl | rfl : t = .comma ∨ t = .rparen ∨ t = .eof := hend <;> exact .inr rfl
    have hname : nameOf? (front ts) = none := by
      obtain hfront | hfront | hfront := hend <;> rw [hfront] <;> rfl
    cases entryOf_entry hfirst with
    | column _ hc =>
      rw [(atEnd_column hc).2] at hname
      cases hname
    | skipped hskipped =>
      rw [hskipped] at hkind
      exact absurd hkind (by decide)
    | @constraint _ _ _ _ t _ _ hconstraint _ =>
      rw [hconstraint] at hkind
      obtain hwhole | hleading := constraintKind_cases t
      · rw [hwhole] at hkind
        exact absurd hkind (by decide)
      · rw [hleading] at hkind
        exact absurd hkind (by decide)

-- ---------------------------------------------------------------------------
-- Elements
-- ---------------------------------------------------------------------------

/-- What an element of each kind has for entries. Behind a constraint that ends with what it says,
the rest of the element is an element of its own. -/
def Element.Fits (x : Element dialect table) : Prop :=
  match elementKind x.tokens with
  | .empty => x.entries = []
  | .column => ∃ c, x.entries = [.column c] ∧ nameOf? (front x.tokens) = some c.column.name
  | .skipped => x.entries = [.skipped]
  | .whole => ∃ k, x.entries = [.constraint k]
  | .leading => ∃ k, ∃ y : Element dialect table, x.entries = .constraint k :: y.entries ∧
      entry dialect table (x.tokens ++ [.rparen]) = .ok (.constraint k, y.tokens ++ [.rparen])

/-- An element that is not empty has a first entry. -/
theorem Element.first (x : Element dialect table) (hne : x.tokens ≠ []) :
    ∃ e es left, x.entries = e :: es ∧
      entry dialect table (x.tokens ++ [Token.rparen]) = .ok (e, left) ∧
        Entries dialect table left es [Token.rparen] := by
  have hreads := x.reads
  generalize hts : x.tokens ++ [Token.rparen] = ts at hreads
  generalize hes : x.entries = es at hreads
  cases hreads with
  | nil => exact absurd (List.self_eq_append_left.1 hts.symm) hne
  | cons hfirst hmore => exact ⟨_, _, _, rfl, hfirst, hmore⟩

/-- **Kinds.** The entries of an element are those of its kind. -/
theorem Element.fits (x : Element dialect table) : x.Fits := by
  by_cases hne : x.tokens = []
  · have hreads := x.reads
    rw [hne] at hreads
    rw [Fits, hne]
    exact (hreads.eq_nil (.inr (.inl rfl))).1
  obtain ⟨e, es, left, hentries, hfirst, hmore⟩ := x.first hne
  -- once the end of the element is reached, no further entry follows
  have hend (h : AtEnd left) : es = [] := (hmore.eq_nil h).1
  have hof := entryOf_entry hfirst
  have hfront : front (x.tokens ++ [Token.rparen]) = front x.tokens := by
    obtain ⟨t, more, ht⟩ := List.exists_cons_of_ne_nil hne
    rw [ht]
    rfl
  rw [Fits, ← elementKind_append hne, ← hfront, hentries]
  generalize x.tokens ++ [Token.rparen] = ts at hof hfirst ⊢
  cases hof with
  -- the kind tells the first entry, and a constraint that is no whole one leads others
  | column hkind hc =>
    obtain ⟨hleft, hname⟩ := atEnd_column hc
    rw [hkind, hend hleft]
    exact ⟨_, rfl, hname⟩
  | skipped hkind =>
    rw [hkind, hend (atEnd_fromElementEnd 0 _)]
  | @constraint n before more _ t k _ hkind hk =>
    rw [hkind]
    obtain hwhole | hleading := constraintKind_cases t
    · rw [hwhole, hend (atEnd_constraintFrom hwhole hk)]
      exact ⟨k, rfl⟩
    · obtain ⟨tokens, rfl⟩ := hmore.suffix
      rw [hleading]
      exact ⟨k, ⟨tokens, es, hmore⟩, rfl, hfirst⟩

-- ---------------------------------------------------------------------------
-- Levels
-- ---------------------------------------------------------------------------

/-- The parentheses of the type behind a name hold no parentheses. -/
def FlatType (ts : List Token) : Prop :=
  ∀ n w type left, writtenType n (ts.drop 1 ++ [Token.rparen]) = .ok (w, left) →
    ts.drop 1 ++ [Token.rparen] = type ++ left → Flat type

/-- A column whose types and clauses are in order is on one level. -/
theorem level_column {c : ColumnDefinition} (horderly : Orderly ts) (hflat : FlatType ts)
    (h : column dialect table (ts ++ [Token.rparen]) = .ok (c, [Token.rparen])) : Level ts := by
  rw [column] at h
  obtain ⟨n, afterName, hname, htyped⟩ := bind_eq_ok h
  obtain ⟨w, afterType, htype, hclauses⟩ := bind_eq_ok htyped
  obtain ⟨d, left, hrun, hmade⟩ := bind_eq_ok hclauses
  cases hmade
  obtain ⟨hnamed, rfl⟩ := name_cases hname
  cases ts with
  | nil => exact .nil
  | cons t more =>
    have ht : isMark t = false := isMark_of_name hnamed
    -- a type takes at least its name, and what it takes is level
    obtain rfl | ⟨type, hmore, hlevel⟩ := keeps_writtenType n htype
    · obtain hnone | ⟨taken, hnone, -⟩ := keeps_clauses _ hrun
      · cases hnone
      · simp at hnone
    obtain hnone | ⟨clauses, rfl, hbehind⟩ := keeps_clauses _ hrun
    · cases hnone
    obtain rfl : more = type ++ clauses :=
      List.append_cancel_right (hmore.trans (List.append_assoc _ _ _).symm)
    have htype : Level type := hlevel (hflat n w type _ htype hmore)
    have hhead : Level (t :: type) := htype.plain ht
    have hrest : Orderly clauses :=
      divides_orderly.right (show Orderly (t :: type ++ clauses) from horderly) hhead
    exact hhead.append (hbehind hrest)

/-- **One level.** An element that is one entry is on one level. -/
theorem Element.level (x : Element dialect table) (horderly : Orderly x.tokens)
    (hflat : elementKind x.tokens = .column → FlatType x.tokens) (hone : x.entries.length ≤ 1) :
    Level x.tokens := by
  by_cases hne : x.tokens = []
  · rw [hne]
    exact .nil
  obtain ⟨e, es, left, hentries, hfirst, hmore⟩ := x.first hne
  obtain rfl : es = [] := by
    rw [hentries, List.length_cons] at hone
    exact List.length_eq_zero_iff.1 (by omega)
  cases hmore
  have hof := entryOf_entry hfirst
  rw [← elementKind_append hne] at hflat
  generalize hts : x.tokens ++ [Token.rparen] = ts at hof hflat
  generalize hleft : [Token.rparen] = left at hof
  -- the run is what its one entry takes, and no entry takes a bracket it leaves open
  cases hof with
  | column hkind hc =>
    rw [← hts, ← hleft] at hc
    exact level_column horderly (hflat hkind) hc
  | skipped hkind =>
    have hsome : fromElementEnd 0 ts ≠ [] := hleft ▸ List.cons_ne_nil _ _
    obtain ⟨taken, htaken, hlevel⟩ := depthAfter_fromElementEnd hsome
    rw [← hleft, ← hts] at htaken
    rwa [List.append_cancel_right htaken]
  | @constraint n before more _ t k hbefore hkind hk =>
    have hconstraint : tableConstraint n (t :: more) = .ok (k, left) := by
      rw [tableConstraint]
      exact hk
    -- a constraint ends at its last bracket or runs to the end of the element
    subst hleft
    obtain hnone | ⟨taken, htaken, hlevel⟩ := keeps_tableConstraint n hconstraint
    · cases hnone
    rw [htaken, ← List.append_assoc] at hts
    have htokens : x.tokens = before ++ taken := List.append_cancel_right hts
    rw [htokens] at horderly ⊢
    exact hbefore.append (hlevel (divides_orderly.right horderly hbefore))

-- ---------------------------------------------------------------------------
-- Settled elements
-- ---------------------------------------------------------------------------

/-- An element that its own tokens say everything about: outside parentheses no word takes a comma
or a parenthesis, the parentheses of a type hold none, and nothing stands behind a constraint that
ends with what it says. -/
structure Element.Settled (x : Element dialect table) : Prop where
  orderly : Orderly x.tokens
  flat    : elementKind x.tokens = .column → FlatType x.tokens
  alone   : elementKind x.tokens = .leading →
              ∃ k, entry dialect table (x.tokens ++ [Token.rparen]) =
                .ok (.constraint k, [Token.rparen])

/-- A settled element is one entry at most. It declares the column that it begins with, if it is of
that kind, and none otherwise. -/
theorem Element.Settled.entries {x : Element dialect table} (h : x.Settled) :
    x.entries.length ≤ 1 ∧ (declaredNames x.entries).map some =
      if elementKind x.tokens = .column then [nameOf? (front x.tokens)] else [] := by
  have hfits := x.fits
  unfold Fits at hfits
  cases hkind : elementKind x.tokens with
  | empty =>
    rw [hkind] at hfits
    rw [hfits]
    exact ⟨Nat.zero_le 1, rfl⟩
  | column =>
    rw [hkind] at hfits
    obtain ⟨c, hentries, hname⟩ := hfits
    rw [hentries, hname]
    exact ⟨Nat.le_refl 1, rfl⟩
  | skipped =>
    rw [hkind] at hfits
    rw [hfits]
    exact ⟨Nat.le_refl 1, rfl⟩
  | whole =>
    rw [hkind] at hfits
    obtain ⟨k, hentries⟩ := hfits
    rw [hentries]
    exact ⟨Nat.le_refl 1, rfl⟩
  | leading =>
    -- read alone, a constraint such as a key leaves nothing for a further entry
    rw [hkind] at hfits
    obtain ⟨k, y, hentries, hread⟩ := hfits
    obtain ⟨k', hread'⟩ := h.alone hkind
    have hnone : y.tokens = [] := by
      have hleft := congrArg Prod.snd (Except.ok.inj (hread.symm.trans hread'))
      exact List.self_eq_append_left.1 hleft.symm
    have hreads := y.reads
    rw [hnone] at hreads
    rw [hentries, (hreads.eq_nil (.inr (.inl rfl))).1]
    exact ⟨Nat.le_refl 1, rfl⟩

/-- What stands between the parentheses of a table, and behind them. -/
def TableText.body (x : TableText dialect) : List Token :=
  commaSeparated (x.elements.map (·.tokens)) ++ .rparen :: x.tail

/-- **Columns.** A table has the columns of its elements, in their order, and the entries of an
element are those of its kind. If its elements are settled, they are what the outer commas of its
list part, and its columns are exactly the names that elements of the kind of columns begin with. -/
theorem columns_createTable {d : TableDefinition}
    (h : Statement.parse dialect ts = .ok (.createTable d)) :
    ∃ x : TableText dialect, x.head ++ .lparen :: x.body = ts ∧
      d.table.columnNames = x.elements.flatMap (fun e => declaredNames e.entries) ∧
      (∀ e ∈ x.elements, e.Fits) ∧
      ((∀ e ∈ x.elements, e.Settled) → outerElements x.body = x.elements.map (·.tokens) ∧
        d.table.columnNames.map some =
          ((outerElements x.body).filter (elementKind · = .column)).map fun run =>
            nameOf? (front run)) := by
  obtain ⟨x, rfl⟩ := exists_tableText h
  have hparse := parse_tableText x x.elements
  rw [TableText.tokens, hparse] at h
  obtain ⟨d', hd, hmade⟩ := ok_of_map h
  cases hmade
  have hnames := x.columnNames hd
  refine ⟨x, rfl, hnames, fun e _ => e.fits, fun hsettled => ?_⟩
  have hsome : x.elements.map (·.tokens) ≠ [] := by
    intro hnone
    rw [List.map_eq_nil_iff.1 hnone] at hd
    cases hd
  -- settled elements are level, so the outer commas are those between them
  have hlevel : ∀ run ∈ x.elements.map (·.tokens), Level run := by
    intro run hrun
    obtain ⟨e, he, rfl⟩ := List.mem_map.1 hrun
    have hs := hsettled e he
    exact e.level hs.orderly hs.flat hs.entries.1
  have houter : outerElements x.body = x.elements.map (·.tokens) :=
    outerElements_commaSeparated hsome hlevel x.tail
  refine ⟨houter, ?_⟩
  rw [houter, hnames]
  -- element by element: one name for a column, none for the others
  generalize x.elements = elements at hsettled
  induction elements with
  | nil => rfl
  | cons e rest ih =>
    obtain ⟨hfirst, hrest⟩ := List.forall_mem_cons.1 hsettled
    rw [List.flatMap_cons, List.map_append, ih hrest, hfirst.entries.2, List.map_cons,
      List.filter_cons]
    split
    · rename_i hkind
      rw [if_pos (by simpa using hkind)]
      rfl
    · rename_i hkind
      rw [if_neg (by simpa using hkind)]
      rfl

/-- A column without commas and parentheses is settled. -/
theorem Element.settled_of_plain {x : Element dialect table}
    (hplain : ∀ t ∈ x.tokens, isMark t = false) (hkind : elementKind x.tokens = .column) :
    x.Settled := by
  refine ⟨fun before t u after htokens _ _ => hplain u (by simp [htokens]), ?_, ?_⟩
  · intro _ n w type left _ htype before inner after hparen
    have hmem : Token.lparen ∈ x.tokens.drop 1 ++ [Token.rparen] := by
      rw [htype, hparen]
      simp
    rcases List.mem_append.1 hmem with hmem | hmem
    · cases hplain _ (List.mem_of_mem_drop hmem)
    · cases List.mem_singleton.1 hmem
  · exact fun hleading => by rw [hkind] at hleading; cases hleading

/-- A list without commas and inner parentheses has one element. -/
theorem TableText.elements_of_plain (x : TableText dialect) {head run : List Token}
    (h : x.head ++ .lparen :: x.body = head ++ .lparen :: (run ++ [Token.rparen]))
    (hhead : Token.lparen ∉ head) (hne : run ≠ []) (hplain : ∀ t ∈ run, isMark t = false) :
    x.elements.map (·.tokens) = [run] := by
  have hopen : Token.lparen ∉ run ++ [Token.rparen] := by
    intro hmem
    rcases List.mem_append.1 hmem with hmem | hmem
    · cases hplain _ hmem
    · cases List.mem_singleton.1 hmem
  have hbody := ((List.append_cons_inj_of_notMem hhead hopen).1 h.symm).2.2.symm
  have hclose : Token.rparen ∉ run := fun hmem => by cases hplain _ hmem
  rw [body] at hbody
  have hruns := ((List.append_cons_inj_of_notMem hclose List.not_mem_nil).1 hbody.symm).1.symm
  generalize x.elements.map (·.tokens) = runs at hruns
  -- without a comma in between, there is one run, which is the whole
  rcases runs with _ | ⟨only, _ | ⟨second, more⟩⟩
  · exact absurd hruns.symm hne
  · rw [commaSeparated_singleton] at hruns
    rw [hruns]
  · rw [commaSeparated_cons_cons] at hruns
    have hcomma : Token.comma ∈ run := by simp [← hruns]
    cases hplain _ hcomma

/-- A table of a column and its key, and one of a column that is settled. -/
theorem columns_createTable_of_key :
    (∃ d, ∃ x : TableText .generic,
      x.head ++ .lparen :: x.body = [.keyword .create, .keyword .table, .ident "t", .lparen,
        .ident "a", .ident "INT", .comma, .keyword .primary, .keyword .key, .lparen, .ident "a",
        .rparen, .rparen] ∧
      Statement.parse .generic (x.head ++ .lparen :: x.body) = .ok (.createTable d) ∧
      d.table.columnNames = x.elements.flatMap fun e => declaredNames e.entries) ∧
    ∃ d, ∃ x : TableText .generic,
      x.head ++ .lparen :: x.body = [.keyword .create, .keyword .table, .ident "t"] ++
        .lparen :: ([.ident "a", .ident "INT"] ++ [Token.rparen]) ∧
      Statement.parse .generic (x.head ++ .lparen :: x.body) = .ok (.createTable d) ∧
      (∀ e ∈ x.elements, e.Settled) ∧
      outerElements x.body = x.elements.map (·.tokens) ∧
      d.table.columnNames.map some = ((outerElements x.body).filter
        (elementKind · = .column)).map fun run => nameOf? (front run) := by
  let key : Column := {
    name := "a", declaredType := "INT", dataType := .integer, nullable := false, primaryKey := true }
  have h : Statement.parse .generic [.keyword .create, .keyword .table, .ident "t", .lparen,
      .ident "a", .ident "INT", .comma, .keyword .primary, .keyword .key, .lparen, .ident "a",
      .rparen, .rparen] = .ok (.createTable {
        table := { name := "t", columns := [key], primaryKey := ["a"] }
        foreignKeys := [], inlineEnums := [], ifNotExists := false }) := by
    decide +kernel
  obtain ⟨x, hx, hnames, -⟩ := columns_createTable h
  refine ⟨⟨_, x, hx, hx ▸ h, hnames⟩, ?_⟩
  -- the single element of the second statement is plain words, hence settled
  have hplain : ∀ t ∈ [Token.ident "a", Token.ident "INT"], isMark t = false := by decide
  have h' : Statement.parse .generic ([.keyword .create, .keyword .table, .ident "t"] ++
      .lparen :: ([.ident "a", .ident "INT"] ++ [Token.rparen])) = .ok (.createTable {
        table := {
          name := "t", columns := [{ name := "a", declaredType := "INT", dataType := .integer }] }
        foreignKeys := [], inlineEnums := [], ifNotExists := false }) := by
    decide +kernel
  have hcolumn : elementKind [Token.ident "a", Token.ident "INT"] = .column := by decide +kernel
  obtain ⟨x', hx', -, -, hexact⟩ := columns_createTable h'
  have htokens := x'.elements_of_plain hx' (by decide) (by decide) hplain
  have hsettled : ∀ e ∈ x'.elements, e.Settled := by
    intro e he
    have hrun : e.tokens = [.ident "a", .ident "INT"] :=
      List.mem_singleton.1 (htokens ▸ List.mem_map_of_mem he)
    exact Element.settled_of_plain (hrun ▸ hplain) (hrun ▸ hcolumn)
  exact ⟨_, x', hx', hx' ▸ h', hsettled, hexact hsettled⟩

/-- The method of a primary key is taken for a column. -/
theorem columns_of_key_method :
    (Statement.parse .generic [.keyword .create, .keyword .table, .ident "t", .lparen, .ident "a",
        .ident "INT", .comma, .keyword .primary, .keyword .key, .lparen, .ident "a", .rparen,
        .ident "USING", .ident "BTREE", .rparen]).toOption.map
      (fun | .createTable d => d.table.columnNames | _ => []) = some ["a", "USING"] := by
  decide +kernel

end CrudGen.Sql.Parser
