import CrudGen.Proofs.Sql.ElementKinds

/-!
# Statements — parts of an `ALTER TABLE`

An element of a table can stand behind `ADD` in an `ALTER TABLE`, and a default behind `SET`. Each is
read there as what it is among the elements of a table, up to the comma or the end behind it.

Main results:

* `parse_alterTokens` — parts in a row are read as their actions.
* `isPart_constraint`, `isPart_column`, `isPart_default` — what elements and defaults are as parts.
-/

namespace CrudGen.Sql.Parser

variable {dialect : Dialect} {table : String} {ts rest τ : List Token}

-- ---------------------------------------------------------------------------
-- Parts in a row
-- ---------------------------------------------------------------------------

/-- An `ALTER TABLE` of the table that `named` is, with these parts. -/
def alterTokens (named : List Token) (parts : List (List Token)) : List Token :=
  .keyword .alter :: .keyword .table :: (named ++ commaSeparated parts)

/-- Tokens that begin with a keyword and are read as one part, whatever ends it. -/
structure IsPart (dialect : Dialect) (table : String) (part : List Token)
    (action? : Option AlterAction) : Prop where
  begins : ∃ k more, part = .keyword k :: more
  reads  : ∀ (actions : List AlterAction) (τ : List Token), Closes τ →
             alterElement dialect table actions (part ++ τ) =
               .ok (.yield (actions ++ action?.toList), τ)

theorem iterate_parts {parts : List (List Token)} {actions? : List (Option AlterAction)}
    (h : List.Forall₂ (IsPart dialect table) parts actions?) (actions : List AlterAction) :
    iterate (alterElement dialect table) actions (commaSeparated parts) =
      .ok (actions ++ actions?.flatMap Option.toList, []) := by
  have hround {part τ : List Token} {action? : Option AlterAction}
      (hpart : IsPart dialect table part action?) (hτ : Closes τ) (actions : List AlterAction) :
      iterate (alterElement dialect table) actions (part ++ τ) =
        iterate (alterElement dialect table) (actions ++ action?.toList) τ := by
    -- a part begins with its word, so a round takes at least a token
    obtain ⟨k, more, rfl⟩ := hpart.begins
    refine (Comes.round (hpart.reads actions τ hτ) ?_ (.refl _ _)).iterate_eq
    rw [List.length_append, List.length_cons]
    omega
  have hend (actions : List AlterAction) :
      iterate (alterElement dialect table) actions [] = .ok (actions, []) := by
    rw [iterate]
    rfl
  have hcomma (actions : List AlterAction) (ts : List Token) :
      iterate (alterElement dialect table) actions (.comma :: ts) =
        iterate (alterElement dialect table) actions ts :=
    (Comes.round rfl (Nat.lt_succ_self _) (.refl actions ts)).iterate_eq
  induction h generalizing actions with
  | nil =>
    rw [List.flatMap_nil, List.append_nil]
    exact hend actions
  | @cons part action? parts actions? hpart hmore ih =>
    rw [List.flatMap_cons, ← List.append_assoc]
    cases parts with
    -- a comma stands between two parts, and the loop skips it
    | nil =>
      obtain rfl := List.forall₂_nil_left_iff.1 hmore
      rw [commaSeparated_singleton, ← List.append_nil part, hround hpart .nil, List.flatMap_nil,
        List.append_nil]
      exact hend _
    | cons next more =>
      rw [commaSeparated_cons_cons, hround hpart (.comma _), hcomma]
      exact ih _

theorem front_commaSeparated {parts : List (List Token)} {actions? : List (Option AlterAction)}
    (h : List.Forall₂ (IsPart dialect table) parts actions?) :
    front (commaSeparated parts) ≠ .dot := by
  cases h with
  | nil => exact Token.noConfusion
  | @cons part action? parts actions? hpart _ =>
    obtain ⟨k, more, rfl⟩ := hpart.begins
    have hfront (tokens : List Token) : front (.keyword k :: more ++ tokens) ≠ .dot :=
      Token.noConfusion
    cases parts with
    | nil =>
      rw [commaSeparated_singleton]
      exact Token.noConfusion
    | cons next more =>
      rw [commaSeparated_cons_cons]
      exact hfront _

theorem skipIfExists_none (h : front ts ≠ .keyword .ifWord) :
    skipIfExists ts = .ok (false, ts) := by
  have hnone : accept (· == .keyword .ifWord) ts = .ok (false, ts) := by
    rw [accept_eq, if_neg (by simpa using h)]
  rw [skipIfExists, bind_of_ok hnone]
  rfl

/-- **Parts.** Parts in a row are read as their actions. -/
theorem parse_alterTokens {named : List Token} (hnamed : DottedName named table)
    (hif : front named ≠ .keyword .ifWord) (honly : front named ≠ .keyword .only)
    {parts : List (List Token)} {actions? : List (Option AlterAction)}
    (hparts : List.Forall₂ (IsPart dialect table) parts actions?) :
    Statement.parse dialect (alterTokens named parts) =
      .ok (.change (.alter table (actions?.flatMap Option.toList))) := by
  have hfront : front (named ++ commaSeparated parts) = front named := by
    cases hnamed <;> rfl
  have hread : alter dialect (.keyword .table :: (named ++ commaSeparated parts)) =
      .ok (.change (.alter table (actions?.flatMap Option.toList)), []) := by
    -- neither `IF` nor `ONLY` stands before the name, so both are passed by
    change (discard skipIfExists >>= fun _ => _) (named ++ commaSeparated parts) = _
    rw [bind_of_ok (discard_iff.2 ⟨_, skipIfExists_none (hfront ▸ hif)⟩)]
    change (discard (accept (· == .keyword .only)) >>= fun _ => _)
      (named ++ commaSeparated parts) = _
    rw [bind_of_ok (discard_iff.2 ⟨false, ?_⟩)]
    · change (qualifiedName "table name" >>= fun _ => _) (named ++ commaSeparated parts) = _
      rw [bind_of_ok (qualifiedName_dotted hnamed (front_commaSeparated hparts) _)]
      change (iterate (alterElement dialect table) [] >>= fun _ => _) (commaSeparated parts) = _
      rw [bind_of_ok (iterate_parts hparts [])]
      rfl
    · rw [accept_eq, hfront, if_neg (by simpa using honly)]
  change Except.map Prod.fst (alter dialect (.keyword .table :: (named ++ commaSeparated parts))) = _
  rw [hread]
  rfl

-- ---------------------------------------------------------------------------
-- Constraints
-- ---------------------------------------------------------------------------

/-- Words that a constraint begins with which can be added to a table. -/
def constraintWords : List Token :=
  [.keyword .primary, .keyword .unique, .keyword .foreign, .keyword .check, .keyword .key,
    .keyword .index]

/-- Whether one of these words comes next, or behind the name of a constraint. -/
def beginsConstraint : List Token → Bool
  | .keyword .constraint :: _ :: t :: _ => constraintWords.contains t
  | t :: _ => constraintWords.contains t
  | [] => false

theorem mem_constraintWords {t : Token} (ht : constraintWords.contains t = true) :
    t = .keyword .primary ∨ t = .keyword .unique ∨ t = .keyword .foreign ∨ t = .keyword .check ∨
      t = .keyword .key ∨ t = .keyword .index := by
  rw [constraintWords, List.contains_iff_mem] at ht
  simpa only [List.mem_cons, List.not_mem_nil, or_false] using ht

theorem beginsConstraint_append (h : beginsConstraint ts = true) (τ : List Token) :
    beginsConstraint (ts ++ τ) = true := by
  unfold beginsConstraint at h
  split at h
  · exact h
  · rename_i t more _
    obtain rfl | rfl | rfl | rfl | rfl | rfl := mem_constraintWords h <;> rfl
  · cases h

theorem addition_of_constraint {constraint : Option String} {t : Token} {k : TableConstraint}
    (ht : constraintWords.contains t = true)
    (h : tableConstraint constraint (t :: ts) = .ok (k, rest)) :
    addition dialect table constraint (t :: ts) = .ok (TableConstraint.action? k, rest) := by
  have hindex (w : Keyword) (h : (do
      advance
      return .index (← indexBody) : Parser TableConstraint) (.keyword w :: ts) = .ok (k, rest)) :
      (do
        advance
        return some (.addIndex (← indexBody)) : Parser (Option AlterAction)) (.keyword w :: ts) =
          .ok (TableConstraint.action? k, rest) := by
    obtain ⟨_, left, hadvance, h⟩ := bind_eq_ok h
    obtain ⟨i, left', hi, h⟩ := bind_eq_ok h
    cases h
    rw [bind_of_ok hadvance, bind_of_ok hi]
    rfl
  have hother (h : tableConstraint constraint (t :: ts) = .ok (k, rest)) : (do
      return TableConstraint.action? (← tableConstraint constraint)) (t :: ts) =
        .ok (TableConstraint.action? k, rest) := by
    rw [bind_of_ok h]
    rfl
  -- each word leads to the same reader on either path
  obtain rfl | rfl | rfl | rfl | rfl | rfl := mem_constraintWords ht
  · exact hother h
  · exact hother h
  · exact hother h
  · exact hother h
  · exact hindex .key h
  · exact hindex .index h

/-- What begins with one of the words is a constraint with no name. -/
theorem tableConstraint_of_entry {t : Token} {k : TableConstraint}
    (ht : constraintWords.contains t = true)
    (h : entry dialect table (t :: ts) = .ok (.constraint k, rest)) :
    tableConstraint none (t :: ts) = .ok (k, rest) := by
  have hother (h : (do return .constraint (← tableConstraint none) : Parser Entry) (t :: ts) =
      .ok (.constraint k, rest)) : tableConstraint none (t :: ts) = .ok (k, rest) := by
    obtain ⟨k', left, hk', h⟩ := bind_eq_ok h
    cases h
    exact hk'
  have hindex (w : Keyword) (h : keyOrColumn dialect table (.keyword w :: ts) =
      .ok (.constraint k, rest)) : (do
        advance
        return .index (← indexBody) : Parser TableConstraint) (.keyword w :: ts) = .ok (k, rest) := by
    change (ite _ _ _ : Parser Entry) (.keyword w :: ts) = _ at h
    split at h
    · obtain ⟨_, left, hadvance, h⟩ := bind_eq_ok h
      obtain ⟨i, left', hi, h⟩ := bind_eq_ok h
      cases h
      rw [bind_of_ok hadvance, bind_of_ok hi]
      rfl
    · unfold columnEntry at h
      obtain ⟨c, left, hc, h⟩ := bind_eq_ok h
      cases h
  -- a key or an index is one only where it begins an index, and is a column otherwise
  obtain rfl | rfl | rfl | rfl | rfl | rfl := mem_constraintWords ht
  · exact hother h
  · exact hother h
  · exact hother h
  · exact hother h
  · exact hindex .key h
  · exact hindex .index h

theorem alterAdd_of_entry {k : TableConstraint} (hbegins : beginsConstraint ts = true)
    (h : entry dialect table ts = .ok (.constraint k, rest)) :
    alterAdd dialect table ts = .ok (TableConstraint.action? k, rest) := by
  unfold beginsConstraint at hbegins
  split at hbegins
  -- with a name in front, both take the name first
  · rename_i u t more
    change (name "constraint name" >>= fun n => (do
      return .constraint (← tableConstraint (some n)) : Parser Entry)) (u :: t :: more) = _ at h
    obtain ⟨n, left, hn, h⟩ := bind_eq_ok h
    obtain ⟨k', left', hk', h⟩ := bind_eq_ok h
    cases h
    obtain rfl := (name_cases hn).2
    have hsome : (do return some (← name "constraint name") : Parser (Option String))
        (u :: t :: more) = .ok (some n, t :: more) := by
      rw [bind_of_ok hn]
      rfl
    change ((do return some (← name "constraint name")) >>= addition dialect table)
      (u :: t :: more) = _
    rw [bind_of_ok hsome]
    exact addition_of_constraint hbegins hk'
  -- without one, the word itself decides
  · rename_i t more hnamed
    have hk := tableConstraint_of_entry hbegins h
    have hnone : accept (· == .keyword .constraint) (t :: more) = .ok (false, t :: more) := by
      rw [accept_eq, if_neg]
      change ¬ (t == .keyword .constraint) = true
      rw [beq_iff_eq]
      rintro rfl
      cases hbegins
    rw [alterAdd, bind_of_ok hnone]
    exact addition_of_constraint hbegins hk
  · cases hbegins

theorem alterElement_add {action? : Option AlterAction}
    (h : alterAdd dialect table ts = .ok (action?, rest)) (actions : List AlterAction) :
    alterElement dialect table actions (.keyword .add :: ts) =
      .ok (.yield (actions ++ action?.toList), rest) := by
  change (alterAdd dialect table >>= fun action? => (do
    return .yield (actions ++ action?.toList) : Parser (ForInStep (List AlterAction)))) ts = _
  rw [bind_of_ok h]
  rfl

/-- **Constraints.** A constraint behind `ADD` adds what it is among the elements of a table. -/
theorem isPart_constraint {x : Element dialect table} {k : TableConstraint}
    (hx : x.entries = [.constraint k]) (hbegins : beginsConstraint x.tokens = true) :
    IsPart dialect table (.keyword .add :: x.tokens) (TableConstraint.action? k) := by
  refine ⟨⟨.add, x.tokens, rfl⟩, fun actions τ hτ => alterElement_add ?_ actions⟩
  exact alterAdd_of_entry (beginsConstraint_append hbegins τ) (Element.entry_of_single hx hτ)

-- ---------------------------------------------------------------------------
-- Columns
-- ---------------------------------------------------------------------------

/-- **Columns.** A column behind `ADD COLUMN` adds what it is among the elements of a table, unless
it is taken for `IF EXISTS`. -/
theorem isPart_column {x : Element dialect table} {c : ColumnDefinition}
    (hx : x.entries = [.column c]) (hif : front x.tokens ≠ .keyword .ifWord) :
    IsPart dialect table (.keyword .add :: .ident "COLUMN" :: x.tokens) (some (.addColumn c)) := by
  refine ⟨⟨.add, _, rfl⟩, fun actions τ hτ => alterElement_add ?_ actions⟩
  have hc := (entry_column_iff.1 (Element.entry_of_single hx hτ)).2
  obtain ⟨t, more, ht⟩ : ∃ t more, x.tokens = t :: more := by
    refine List.exists_cons_of_ne_nil fun hnil => ?_
    have hentry := Element.entry_of_single hx .nil
    rw [hnil] at hentry
    cases hentry
  rw [ht] at hc hif ⊢
  -- the optional word is written, so that the column is not taken for anything else
  have hword : accept (isWord "COLUMN") (.ident "COLUMN" :: (t :: more ++ τ)) =
      .ok (true, t :: more ++ τ) := by
    rw [accept_eq, if_pos]
    · rfl
    · exact sameName_self "COLUMN"
  have hskip : skipIfExists (t :: more ++ τ) = .ok (false, t :: more ++ τ) := skipIfExists_none hif
  change (discard (accept (isWord "COLUMN")) >>= fun _ => discard skipIfExists >>= fun _ =>
    column dialect table >>= fun c => pure (some (AlterAction.addColumn c)))
      (.ident "COLUMN" :: (t :: more ++ τ)) = _
  rw [bind_of_ok (discard_iff.2 ⟨_, hword⟩),
    bind_of_ok (discard_iff.2 ⟨_, hskip⟩), bind_of_ok hc]
  rfl

-- ---------------------------------------------------------------------------
-- Defaults
-- ---------------------------------------------------------------------------

/-- Tokens that set a default. -/
def setDefaultTokens (column : Token) (expression : List Token) : List Token :=
  .keyword .alter :: .ident "COLUMN" :: column :: .ident "SET" :: .keyword .default :: expression

/-- **Defaults.** Tokens behind `SET DEFAULT` set the default that they are. -/
theorem isPart_default {t : Token} {n : String} {expression : List Token} (ht : nameOf? t = some n)
    (hne : expression ≠ [])
    (hexpression : ∀ τ, Closes τ → spanDefault 0 true (expression ++ τ) = (expression, τ)) :
    IsPart dialect table (setDefaultTokens t expression)
      (some (.setDefault n (render expression))) := by
  refine ⟨⟨.alter, _, rfl⟩, fun actions τ hτ => ?_⟩
  have hdefault : defaultExpression (expression ++ τ) = .ok (render expression, τ) :=
    defaultExpression_eq_ok.2 ⟨expression, hne, hexpression τ hτ, rfl⟩
  -- the optional word is there, and the name follows it
  have hword : accept (isWord "COLUMN") (.ident "COLUMN" :: t :: .ident "SET" ::
      .keyword .default :: (expression ++ τ)) =
        .ok (true, t :: .ident "SET" :: .keyword .default :: (expression ++ τ)) := by
    rw [accept_eq, if_pos]
    · rfl
    · exact sameName_self "COLUMN"
  have hset : isWord "SET" (.ident "SET") = true := sameName_self "SET"
  have halter : alterColumn (.ident "COLUMN" :: t :: .ident "SET" :: .keyword .default ::
      (expression ++ τ)) = .ok (some (.setDefault n (render expression)), τ) := by
    rw [alterColumn, bind_of_ok (discard_iff.2 ⟨_, hword⟩), bind_of_ok (name_eq_ok ht)]
    change (if isWord "SET" (.ident "SET") && true then _ else _ : Parser (Option AlterAction)) _ = _
    rw [hset]
    -- the expression reaches to what closes the part
    change (defaultExpression >>= fun e => pure (some (AlterAction.setDefault n e)))
      (expression ++ τ) = _
    rw [bind_of_ok hdefault]
    rfl
  change (alterColumn >>= fun action? => (do
    return .yield (actions ++ action?.toList) : Parser (ForInStep (List AlterAction))))
      (.ident "COLUMN" :: t :: .ident "SET" :: .keyword .default :: (expression ++ τ)) = _
  rw [bind_of_ok halter]
  rfl

end CrudGen.Sql.Parser
