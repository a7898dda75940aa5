import CrudGen.Proofs.Sql.ClauseRuns
import CrudGen.Proofs.Sql.Columns

/-!
# Columns — clauses as they are written

`ClauseText` says how each clause of a column is written. Whatever clauses stand around it, such a
clause is read from its first token to its last and says what it says alone. Clauses of different
kinds change different parts of a column, so their order does not matter.

Main results:

* `ClauseText.reads`, `reads_clauses` — clauses in a row are read one by one.
* `column_clauses_perm` — a column is the same for every order of its clauses.
-/

namespace CrudGen.Sql.Parser

variable {dialect : Dialect} {table n : String} {ts left τ : List Token} {c : Clause}

-- ---------------------------------------------------------------------------
-- How clauses are written
-- ---------------------------------------------------------------------------

/-- What a clause of a column is about. -/
inductive ClauseKind where
  | primaryKey | notNull | null | unique | default | references | check | collate | comment
  | autoIncrement | identity
  deriving DecidableEq, Repr, Inhabited

/-- The action of a reference, as it is written. -/
inductive ActionText : List Token → ReferentialAction → Prop
  | cascade : ActionText [.keyword .cascade] .cascade
  | restrict : ActionText [.keyword .restrict] .restrict
  | setNull {t : Token} (ht : isWord "SET" t = true) : ActionText [t, .keyword .null] .setNull
  | setDefault {t : Token} (ht : isWord "SET" t = true) :
      ActionText [t, .keyword .default] .setDefault
  | noAction {t u : Token} (ht : isWord "NO" t = true) (hu : isWord "ACTION" u = true) :
      ActionText [t, u] .noAction

/-- What happens on an event, if anything is written about it. -/
inductive EventText (event : Keyword) : List Token → ReferentialAction → Prop
  | absent : EventText event [] .noAction
  | present {ts : List Token} {action : ReferentialAction} (h : ActionText ts action) :
      EventText event (.keyword .on :: .keyword event :: ts) action

/-- The column that a reference names, if it names one. -/
inductive TargetText : List Token → Option String → Prop
  | absent : TargetText [] none
  | present {t : Token} {column : String} (ht : nameOf? t = some column) :
      TargetText (group [t]) (some column)

/-- Options in parentheses, if there are any. -/
inductive OptionsText : List Token → Prop
  | absent : OptionsText []
  | present {inner : List Token} (h : Balanced inner) : OptionsText (group inner)

/-- How the clauses of column `n` are written, and what they say. -/
inductive ClauseText (n : String) : ClauseKind → List Token → Clause → Prop
  | primaryKey : ClauseText n .primaryKey [.keyword .primary, .keyword .key] .primaryKey
  | notNull : ClauseText n .notNull [.keyword .not, .keyword .null] .required
  | null : ClauseText n .null [.keyword .null] .optional
  | unique : ClauseText n .unique [.keyword .unique] .unique
  | default {expression : List Token} (h : DefaultText true expression) :
      ClauseText n .default (.keyword .default :: expression) (.default (render expression))
  | references {named target onDelete onUpdate : List Token} {table : String}
      {column : Option String} {deletion update : ReferentialAction}
      (hnamed : DottedName named table) (htarget : TargetText target column)
      (hdelete : EventText .delete onDelete deletion)
      (hupdate : EventText .update onUpdate update) :
      ClauseText n .references
        (.keyword .references :: (named ++ (target ++ (onDelete ++ onUpdate))))
        (.reference {
          name := none
          columns := [n]
          targetTable := table
          targetColumns := column.map fun column => [column]
          onDelete := deletion
          onUpdate := update })
  | check {inner : List Token} (h : Balanced inner) :
      ClauseText n .check (.keyword .check :: group inner) .skipped
  | collate {named : List Token} {collation : String} (h : DottedName named collation) :
      ClauseText n .collate (.keyword .collate :: named) .skipped
  | comment (text : String) :
      ClauseText n .comment [.keyword .comment, .str text] (.comment text)
  | autoIncrement : ClauseText n .autoIncrement [.keyword .increment] .counter
  | identity {generated always as identity : Token} {options : List Token}
      (hgenerated : isWord "GENERATED" generated = true) (halways : isWord "ALWAYS" always = true)
      (has : isWord "AS" as = true) (hidentity : isWord "IDENTITY" identity = true)
      (hoptions : OptionsText options) :
      ClauseText n .identity (generated :: always :: as :: identity :: options) .counter
  /-- Any clause may have a name. -/
  | named {kind : ClauseKind} {t : Token} {name : String} {ts : List Token} {c : Clause}
      (ht : nameOf? t = some name) (h : ClauseText n kind ts c) :
      ClauseText n kind (.keyword .constraint :: t :: ts) c

/-- Tokens before which a clause ends: the next clause, or the end of the element. -/
inductive EndsClause : List Token → Prop
  | element {τ : List Token} (h : Closes τ) : EndsClause τ
  | notNull (τ : List Token) : EndsClause (.keyword .not :: .keyword .null :: τ)
  | keyword {k : Keyword} (τ : List Token) (hk : k ∈ [Keyword.primary, .null, .unique, .default,
      .references, .check, .collate, .comment, .increment, .constraint]) :
      EndsClause (.keyword k :: τ)
  | generated {t : Token} (τ : List Token) (ht : isWord "GENERATED" t = true) : EndsClause (t :: τ)

/-- Where a clause begins, the one before it ends. -/
theorem ClauseText.endsClause {kind : ClauseKind} (h : ClauseText n kind ts c) (τ : List Token) :
    EndsClause (ts ++ τ) := by
  cases h with
  | notNull => exact .notNull τ
  | identity hgenerated => exact .generated _ hgenerated
  | _ => exact .keyword _ (by decide)

/-- A token that is one word is no other word than that one. -/
theorem isWord_ident {v w s : String} (h : isWord v (.ident s) = true) :
    isWord w (.ident s) = isWord w (.ident v) :=
  (isWord_of_sameName h w).symm

/-- The word `GENERATED` goes on with no type. -/
theorem goesOnWithType_generated {t : Token} (ht : isWord "GENERATED" t = true) :
    goesOnWithType t = false := by
  obtain ⟨s, rfl⟩ := isWord_eq_true ht
  have hlower : Text.toLower s = Text.toLower "GENERATED" := Text.toLower_of_sameName ht
  change typeContinuations.contains (Text.toLower s) = false
  rw [hlower]
  decide +kernel

namespace EndsClause

/-- What ends a clause stops a type. -/
theorem stopsType (h : EndsClause τ) : StopsType τ := by
  cases h with
  | element h =>
    cases τ with
    | nil => exact ⟨Token.noConfusion, Token.noConfusion, Token.noConfusion, rfl⟩
    | cons t more =>
      obtain rfl | rfl := h t rfl
      · exact ⟨Token.noConfusion, Token.noConfusion, Token.noConfusion, rfl⟩
      · exact ⟨Token.noConfusion, Token.noConfusion, Token.noConfusion, rfl⟩
  | notNull | keyword => exact ⟨Token.noConfusion, Token.noConfusion, Token.noConfusion, rfl⟩
  | @generated t τ ht =>
    have hword := goesOnWithType_generated ht
    obtain ⟨s, rfl⟩ := isWord_eq_true ht
    exact ⟨Token.noConfusion, Token.noConfusion, Token.noConfusion, hword⟩

/-- What ends a clause is not read as `PRIMARY KEY` or `UNIQUE KEY`. -/
theorem ne_key (h : EndsClause τ) : front τ ≠ .keyword .key := by
  cases h with
  | element h =>
    cases τ with
    | nil => exact Token.noConfusion
    | cons t more => obtain rfl | rfl := h t rfl <;> exact Token.noConfusion
  | notNull => nofun
  | keyword τ hk =>
    rintro ⟨⟩
    exact absurd hk (by decide)
  | @generated t τ ht =>
    obtain ⟨s, rfl⟩ := isWord_eq_true ht
    exact Token.noConfusion

/-- The clauses of a reference end where a clause of the column begins. -/
theorem referenceClause_done (h : EndsClause τ) (actions : ReferentialAction × ReferentialAction) :
    referenceClause actions τ = .ok (.done actions, τ) := by
  cases h with
  -- the end of an element, another clause or `GENERATED`: none goes on with the reference
  | element h =>
    cases τ with
    | nil => rfl
    | cons t more => obtain rfl | rfl := h t rfl <;> rfl
  | notNull => rfl
  | keyword τ hk =>
    simp only [List.mem_cons, List.not_mem_nil, or_false] at hk
    obtain rfl | rfl | rfl | rfl | rfl | rfl | rfl | rfl | rfl | rfl := hk <;> rfl
  | @generated t τ ht =>
    obtain ⟨s, rfl⟩ := isWord_eq_true ht
    have hnot (w : String) (hw : isWord w (.ident "GENERATED") = false) :
        isWord w (.ident s) = false := (isWord_ident ht).trans hw
    change (if isWord "MATCH" (.ident s) then _ else if isOneOf ["DEFERRABLE", "INITIALLY"] (.ident s)
      then _ else _ : Parser (ForInStep (ReferentialAction × ReferentialAction))) (.ident s :: τ) = _
    have hone : isOneOf ["DEFERRABLE", "INITIALLY"] (.ident s) = false := by
      simp only [isOneOf, List.any_cons, List.any_nil, Bool.or_false, Bool.or_eq_false_iff]
      exact ⟨hnot _ (by decide +kernel), hnot _ (by decide +kernel)⟩
    rw [hnot "MATCH" (by decide +kernel), hone]
    rfl

/-- A default ends where another clause begins. -/
theorem endsDefault (h : EndsClause τ) (hdefault : front τ ≠ .keyword .default) :
    Closes τ ∨ Parser.endsDefault (front τ) = true := by
  cases h with
  | element h => exact .inl h
  | notNull => exact .inr rfl
  | @keyword k τ hk =>
    simp only [List.mem_cons, List.not_mem_nil, or_false] at hk
    obtain rfl | rfl | rfl | rfl | rfl | rfl | rfl | rfl | rfl | rfl := hk
    case inr.inr.inr.inl => exact absurd rfl hdefault
    all_goals exact .inr rfl
  | @generated t τ ht =>
    obtain ⟨s, rfl⟩ := isWord_eq_true ht
    exact .inr ht

end EndsClause

-- ---------------------------------------------------------------------------
-- References
-- ---------------------------------------------------------------------------

/-- An action is read from its words. -/
theorem referentialAction_text {action : ReferentialAction} (h : ActionText ts action)
    (τ : List Token) : referentialAction (ts ++ τ) = .ok (action, τ) := by
  cases h with
  | cascade | restrict => rfl
  | @setNull t ht | @setDefault t ht =>
    obtain ⟨s, rfl⟩ := isWord_eq_true ht
    change (if isWord "SET" (.ident s) = true then _ else _ : Parser ReferentialAction)
      (.ident s :: _) = _
    rw [if_pos ht]
    rfl
  | @noAction t u ht hu =>
    obtain ⟨s, rfl⟩ := isWord_eq_true ht
    have hset : isWord "SET" (.ident s) = false := (isWord_ident ht).trans (by decide +kernel)
    change (if isWord "SET" (.ident s) = true then _ else if isWord "NO" (.ident s) = true then _
      else _ : Parser ReferentialAction) (.ident s :: u :: τ) = _
    rw [hset, ht]
    change (if isWord "ACTION" u = true then _ else _ : Parser ReferentialAction) (u :: τ) = _
    rw [if_pos hu]
    rfl

/-- What is written about an event replaces what is known of it. -/
theorem iterate_deletion {deletion update : ReferentialAction} (h : EventText .delete ts deletion)
    (τ : List Token) : iterate referenceClause (.noAction, update) (ts ++ τ) =
      iterate referenceClause (deletion, update) τ := by
  cases h with
  | absent => rfl
  | @present ts action h =>
    have hround : referenceClause (.noAction, update) (.keyword .on :: .keyword .delete :: (ts ++ τ)) =
        .ok (.yield (deletion, update), τ) := by
      change (referentialAction >>= fun action => pure (.yield (action, update)) :
        Parser (ForInStep (ReferentialAction × ReferentialAction))) (ts ++ τ) = _
      rw [bind_of_ok (referentialAction_text h τ)]
      rfl
    refine (Comes.round hround ?_ (.refl _ _)).iterate_eq
    simp only [List.length_cons, List.length_append]
    omega

/-- What happens on updates is read behind what happens on deletions. -/
theorem iterate_update {deletion update : ReferentialAction} (h : EventText .update ts update)
    (τ : List Token) : iterate referenceClause (deletion, .noAction) (ts ++ τ) =
      iterate referenceClause (deletion, update) τ := by
  cases h with
  | absent => rfl
  | @present ts action h =>
    have hround : referenceClause (deletion, .noAction)
        (.keyword .on :: .keyword .update :: (ts ++ τ)) = .ok (.yield (deletion, update), τ) := by
      change (referentialAction >>= fun action => pure (.yield (deletion, action)) :
        Parser (ForInStep (ReferentialAction × ReferentialAction))) (ts ++ τ) = _
      rw [bind_of_ok (referentialAction_text h τ)]
      rfl
    refine (Comes.round hround ?_ (.refl _ _)).iterate_eq
    simp only [List.length_cons, List.length_append]
    omega

/-- A list of one column is read from its parentheses. -/
theorem columnList_single {t : Token} {column : String} (ht : nameOf? t = some column)
    (rest : List Token) : columnList (group [t] ++ rest) = .ok ([column], rest) := by
  have hsuffixes : skipColumnSuffixes (.rparen :: rest) = .ok ((), .rparen :: rest) := by
    rw [skipColumnSuffixes, iterate]
    rfl
  have hcolumn : listColumn [] (t :: .rparen :: rest) = .ok (.yield [column], .rparen :: rest) := by
    -- one name and the bracket that closes, with nothing about order or length in between
    have hread : (name "column name" >>= fun column => skipColumnSuffixes >>= fun _ =>
        pure (.yield ([] ++ [column])) : Parser (ForInStep (List String))) (t :: .rparen :: rest) =
          .ok (.yield [column], .rparen :: rest) := by
      rw [bind_of_ok (name_eq_ok ht), bind_of_ok hsuffixes]
      rfl
    cases t with
    | keyword | serial | ident => exact hread
    | _ => cases ht
  have hlist : iterate listColumn [] (t :: .rparen :: rest) = .ok ([column], rest) := by
    rw [(Comes.round hcolumn (Nat.lt_succ_self _) (.refl _ _)).iterate_eq, iterate]
    rfl
  have hopen : expect .lparen "column list" (group [t] ++ rest) = .ok ((), t :: .rparen :: rest) :=
    rfl
  rw [columnList, bind_of_ok hopen, bind_of_ok hlist]
  rfl

/-- A reference is read as it is written: its table, a column if there is one, and two actions. -/
theorem reference_text {named target onDelete onUpdate : List Token} {table : String}
    {column : Option String} {deletion update : ReferentialAction}
    (hnamed : DottedName named table) (htarget : TargetText target column)
    (hdelete : EventText .delete onDelete deletion) (hupdate : EventText .update onUpdate update)
    (hτ : EndsClause τ) (columns : List String) (constraint : Option String) :
    reference columns constraint (named ++ (target ++ (onDelete ++ (onUpdate ++ τ)))) = .ok ({
      name := constraint
      columns
      targetTable := table
      targetColumns := column.map fun column => [column]
      onDelete := deletion
      onUpdate := update }, τ) := by
  -- first what may follow on deletion, then on update, then the end of the clause
  have hevents : iterate referenceClause (.noAction, .noAction) (onDelete ++ (onUpdate ++ τ)) =
      .ok ((deletion, update), τ) := by
    rw [iterate_deletion hdelete, iterate_update hupdate, iterate, hτ.referenceClause_done]
  -- behind the table stands neither a dot nor a bracket that is not written
  have hfront : front (onDelete ++ (onUpdate ++ τ)) ≠ .dot ∧
      front (onDelete ++ (onUpdate ++ τ)) ≠ .lparen := by
    cases hdelete with
    | present => exact ⟨Token.noConfusion, Token.noConfusion⟩
    | absent =>
      cases hupdate with
      | present => exact ⟨Token.noConfusion, Token.noConfusion⟩
      | absent => exact ⟨hτ.stopsType.dot, hτ.stopsType.lparen⟩
  have hbehind (targetColumns : Option (List String)) :
      referenceBehind constraint columns table targetColumns (onDelete ++ (onUpdate ++ τ)) = .ok ({
        name := constraint, columns, targetTable := table, targetColumns,
        onDelete := deletion, onUpdate := update }, τ) := by
    rw [referenceBehind, bind_of_ok hevents]
    rfl
  -- without target columns nothing is in brackets
  cases htarget with
  | absent =>
    have hparen : (front (onDelete ++ (onUpdate ++ τ)) == .lparen) = false := by
      simpa using hfront.2
    rw [reference_eq, List.nil_append, bind_of_ok (qualifiedName_dotted hnamed hfront.1 _)]
    change (if front (onDelete ++ (onUpdate ++ τ)) == .lparen then _ else _ :
      Parser PendingForeignKey) (onDelete ++ (onUpdate ++ τ)) = _
    rw [hparen]
    exact hbehind none
  | @present t column ht =>
    have hcolumns : (some <$> columnList : Parser (Option (List String)))
        (group [t] ++ (onDelete ++ (onUpdate ++ τ))) =
          .ok (some [column], onDelete ++ (onUpdate ++ τ)) := by
      rw [map_eq_pure_bind, bind_of_ok (columnList_single ht _)]
      rfl
    rw [reference_eq, bind_of_ok (qualifiedName_dotted hnamed Token.noConfusion _)]
    change ((some <$> columnList) >>= referenceBehind constraint columns table)
      (group [t] ++ (onDelete ++ (onUpdate ++ τ))) = _
    rw [bind_of_ok hcolumns]
    exact hbehind (some [column])

-- ---------------------------------------------------------------------------
-- Reading clauses
-- ---------------------------------------------------------------------------

/-- From `ts` on stand clauses that together say `c`, before `rest`. -/
def Says (n : String) (ts : List Token) (c : Clause) (rest : List Token) : Prop :=
  ∃ cs, Clauses n ts cs rest ∧ ∀ d, cs.foldl Clause.apply d = c.apply d

/-- A clause that is read at once says what it is. -/
theorem Says.single {rest : List Token} (h : clauseOf n ts = .ok (some c, rest)) :
    Says n ts c rest :=
  ⟨[c], .cons h (.nil rest), fun _ => rfl⟩

/-- Clauses that say nothing may stand before and behind. -/
theorem Says.behind_skipped {rest : List Token} (hskip : clauseOf n ts = .ok (some .skipped, left))
    (h : Says n left c rest) : Says n ts c rest := by
  obtain ⟨cs, hcs, heffect⟩ := h
  exact ⟨.skipped :: cs, .cons hskip hcs, heffect⟩

/-- A group in parentheses is a clause that says nothing. -/
theorem clauseOf_group {inner : List Token} (h : Balanced inner) (rest : List Token) :
    clauseOf n (group inner ++ rest) = .ok (some .skipped, rest) := by
  change (skipParenthesized >>= fun _ => pure (some Clause.skipped)) (group inner ++ rest) = _
  rw [bind_of_ok (skipParenthesized_group h rest)]
  rfl

/-- A word that is no keyword says nothing, unless it is `IDENTITY`. -/
theorem clauseOf_word {t : Token} {w : String} (ht : isWord w t = true) (rest : List Token) :
    clauseOf n (t :: rest) =
      .ok (some (if isWord "IDENTITY" (.ident w) then .counter else .skipped), rest) := by
  obtain ⟨s, rfl⟩ := isWord_eq_true ht
  rw [← isWord_ident ht]
  rfl

/-- A word that is no clause by itself. -/
theorem clauseOf_skipped {t : Token} {w : String} (ht : isWord w t = true)
    (hw : isWord "IDENTITY" (.ident w) = false) (rest : List Token) :
    clauseOf n (t :: rest) = .ok (some .skipped, rest) := by
  rw [clauseOf_word ht, hw]
  rfl

/-- The word `IDENTITY` counts. -/
theorem clauseOf_identity {t : Token} (ht : isWord "IDENTITY" t = true) (rest : List Token) :
    clauseOf n (t :: rest) = .ok (some .counter, rest) := by
  have hself : isWord "IDENTITY" (.ident "IDENTITY") = true := sameName_self "IDENTITY"
  rw [clauseOf_word ht, if_pos hself]

/-- **Clauses.** A clause is read as what it says, whatever clause stands behind it. A default goes on
until a clause that is no default. -/
theorem ClauseText.reads {kind : ClauseKind} (h : ClauseText n kind ts c) (hτ : EndsClause τ)
    (hdefault : kind = .default → front τ ≠ .keyword .default) : Says n (ts ++ τ) c τ := by
  -- each kind of clause is read by the word it starts with, up to the end of its text
  induction h with
  | primaryKey | notNull | null | comment | autoIncrement => exact .single rfl
  | unique =>
    have hnone : accept (· == .keyword .key) τ = .ok (false, τ) := by
      rw [accept_eq, if_neg (by simpa using hτ.ne_key)]
    refine .single ?_
    change (keywordClauseOf n .unique >>= fun c => pure (some c)) τ = _
    rw [keywordClauseOf, bind_assoc, bind_of_ok (discard_iff.2 ⟨_, hnone⟩)]
    rfl
  | @default expression h =>
    have hread := defaultExpression_text h (hτ.endsDefault (hdefault rfl))
    refine .single ?_
    change (keywordClauseOf n .default >>= fun c => pure (some c)) (expression ++ τ) = _
    rw [keywordClauseOf, bind_assoc, bind_of_ok hread]
    rfl
  | @references named target onDelete onUpdate _ _ _ _ hnamed htarget hdelete hupdate =>
    have hread := reference_text hnamed htarget hdelete hupdate hτ [n] none
    refine .single ?_
    rw [List.cons_append, List.append_assoc, List.append_assoc, List.append_assoc]
    change (keywordClauseOf n .references >>= fun c => pure (some c))
      (named ++ (target ++ (onDelete ++ (onUpdate ++ τ)))) = _
    rw [keywordClauseOf, bind_assoc, bind_of_ok hread]
    rfl
  | @check inner h =>
    refine .single ?_
    change (keywordClauseOf n .check >>= fun c => pure (some c)) (group inner ++ τ) = _
    rw [keywordClauseOf, bind_assoc, bind_of_ok (skipParenthesized_group h τ)]
    rfl
  | @collate named collation h =>
    have hread := qualifiedName_dotted h hτ.stopsType.dot "collation"
    refine .single ?_
    change (keywordClauseOf n .collate >>= fun c => pure (some c)) (named ++ τ) = _
    rw [keywordClauseOf, bind_assoc, bind_of_ok (discard_iff.2 ⟨_, hread⟩)]
    rfl
  | @identity generated always as identity options hgenerated halways has hidentity hoptions =>
    -- the words before `IDENTITY` are none of a clause, so each is passed over
    have hwords {cs : List Clause} (h : Clauses n (options ++ τ) cs τ) :
        Clauses n (generated :: always :: as :: identity :: (options ++ τ))
          (.skipped :: .skipped :: .skipped :: .counter :: cs) τ :=
      .cons (clauseOf_skipped hgenerated (by decide +kernel) _)
        (.cons (clauseOf_skipped halways (by decide +kernel) _)
          (.cons (clauseOf_skipped has (by decide +kernel) _)
            (.cons (clauseOf_identity hidentity _) h)))
    cases hoptions with
    | absent => exact ⟨_, hwords (.nil τ), fun _ => rfl⟩
    | present h => exact ⟨_, hwords (.cons (clauseOf_group h τ) (.nil τ)), fun _ => rfl⟩
  -- a name in front is one clause more, and has no effect
  | @named kind t label ts c ht _ ih =>
    refine .behind_skipped ?_ (ih hdefault)
    change (keywordClauseOf n .constraint >>= fun c => pure (some c)) (t :: (ts ++ τ)) = _
    rw [keywordClauseOf, bind_assoc, bind_of_ok (discard_iff.2 ⟨_, name_eq_ok ht⟩)]
    rfl

/-- A clause of column `n`, and what it says. -/
structure WrittenClause (n : String) where
  kind : ClauseKind
  tokens : List Token
  clause : Clause
  written : ClauseText n kind tokens clause

/-- Only a default begins with the word `DEFAULT`. -/
theorem ClauseText.kind_of_default {kind : ClauseKind} (h : ClauseText n kind ts c)
    (hfront : front (ts ++ τ) = .keyword .default) : kind = .default := by
  cases h with
  | default => rfl
  | identity hgenerated =>
    obtain ⟨s, rfl⟩ := isWord_eq_true hgenerated
    cases hfront
  | _ => cases hfront

/-- Clauses one after the other end where the last of them does. -/
theorem endsClause_clauses (clauses : List (WrittenClause n)) (hτ : EndsClause τ) :
    EndsClause (clauses.flatMap (·.tokens) ++ τ) := by
  cases clauses with
  | nil => exact hτ
  | cons c rest =>
    rw [List.flatMap_cons, List.append_assoc]
    exact c.written.endsClause _

/-- Clauses without a default begin with another word. -/
theorem front_clauses {clauses : List (WrittenClause n)} (h : ∀ c ∈ clauses, c.kind ≠ .default)
    (hτ : front τ ≠ .keyword .default) :
    front (clauses.flatMap (·.tokens) ++ τ) ≠ .keyword .default := by
  cases clauses with
  | nil => exact hτ
  | cons c rest =>
    rw [List.flatMap_cons, List.append_assoc]
    exact fun hfront => h c List.mem_cons_self (c.written.kind_of_default hfront)

/-- **Clauses in a row.** Clauses are read one after the other, unless two defaults meet. -/
theorem reads_clauses {clauses : List (WrittenClause n)}
    (hone : clauses.Pairwise fun c c' => c.kind = .default → c'.kind ≠ .default) (hτ : EndsClause τ)
    (hlast : (∃ c ∈ clauses, c.kind = .default) → front τ ≠ .keyword .default) :
    ∃ cs, Clauses n (clauses.flatMap (·.tokens) ++ τ) cs τ ∧
      ∀ d, cs.foldl Clause.apply d = (clauses.map (·.clause)).foldl Clause.apply d := by
  induction clauses with
  | nil => exact ⟨[], .nil τ, fun _ => rfl⟩
  | cons c rest ih =>
    obtain ⟨hfirst, hrest⟩ := List.pairwise_cons.1 hone
    obtain ⟨cs, hcs, heffect⟩ := ih hrest fun ⟨c', hc', hkind⟩ =>
      hlast ⟨c', List.mem_cons_of_mem _ hc', hkind⟩
    obtain ⟨cs', hcs', heffect'⟩ := c.written.reads (endsClause_clauses rest hτ) fun hkind =>
      front_clauses (fun c' hc' => hfirst c' hc' hkind) (hlast ⟨c, List.mem_cons_self, hkind⟩)
    refine ⟨cs' ++ cs, ?_, fun d => ?_⟩
    · rw [List.flatMap_cons, List.append_assoc]
      exact hcs'.append hcs
    · rw [List.foldl_append, heffect', heffect]
      rfl

-- ---------------------------------------------------------------------------
-- Columns
-- ---------------------------------------------------------------------------

/-- The column that clauses make of a name and a type. -/
def columnOf (dialect : Dialect) (table n : String) (w : WrittenType) (cs : List Clause) :
    ColumnDefinition :=
  let d := cs.foldl Clause.apply (.start dialect table n w)
  { column := d.column, foreignKey := d.foreignKey, inlineEnum := w.inlineEnum? table n }

/-- There is no clause where an element ends. -/
theorem clauseOf_closes (h : Closes τ) : clauseOf n τ = .ok (none, τ) := by
  cases τ with
  | nil => rfl
  | cons t more => obtain rfl | rfl := h t rfl <;> rfl

/-- A column is what its name, its type and its clauses say. -/
theorem column_of_clauses {t : Token} (ht : nameOf? t = some n) {type : List Token} {w : WrittenType}
    (htype : writtenType n type = .ok (w, [])) {cs : List Clause} (hstops : StopsType ts)
    (hcs : Clauses n ts cs τ) (hτ : Closes τ) :
    column dialect table (t :: (type ++ ts)) = .ok (columnOf dialect table n w cs, τ) := by
  have hclauses : iterate columnClause (.start dialect table n w) ts =
      .ok (cs.foldl Clause.apply (.start dialect table n w), τ) :=
    iterate_columnClause_iff.2 ⟨cs, hcs, clauseOf_closes hτ, rfl⟩
  rw [column, bind_of_ok (name_eq_ok ht), bind_of_ok (writtenType_append htype hstops),
    bind_of_ok hclauses]
  rfl

/-- The kind of clause that changes the same part of a column, if there is only one such kind. -/
def Clause.kind? : Clause → Option ClauseKind
  | .default _ => some .default
  | .reference _ => some .references
  | .comment _ => some .comment
  | .optional => some .null
  | _ => none

/-- A clause says of what kind it is. -/
theorem ClauseText.kind_of_clause {kind k : ClauseKind} (h : ClauseText n kind ts c)
    (hk : k ∈ c.kind?) : kind = k := by
  induction h with
  | named _ _ ih => exact ih hk
  | default | references | comment | null =>
    cases hk
    rfl
  | _ => cases hk

/-- Two clauses can change places unless they are of one kind or one of them is `NULL`. -/
theorem Clause.apply_comm {c c' : Clause} (hc : .null ∉ c.kind?) (hc' : .null ∉ c'.kind?)
    (hkinds : ∀ k ∈ c.kind?, k ∉ c'.kind?) (d : ColumnDraft) :
    c'.apply (c.apply d) = c.apply (c'.apply d) := by
  cases c with
  | optional => exact absurd rfl hc
  | _ =>
    cases c' with
    | optional => exact absurd rfl hc'
    | _ => first | exact absurd rfl (hkinds _ rfl) | rfl

/-- Clauses of different kinds may be applied in any order. -/
theorem foldl_clauses_perm {clauses clauses' : List (WrittenClause n)}
    (honce : (clauses.map (·.kind)).Nodup) (hnull : ∀ c ∈ clauses, c.kind ≠ .null)
    (hperm : clauses'.Perm clauses) (d : ColumnDraft) :
    (clauses'.map (·.clause)).foldl Clause.apply d = (clauses.map (·.clause)).foldl Clause.apply d := by
  have hne (c : WrittenClause n) (hc : c ∈ clauses) : .null ∉ c.clause.kind? := fun hk =>
    hnull c hc (c.written.kind_of_clause hk)
  rw [List.foldl_map, List.foldl_map]
  refine (hperm.symm.foldl_eq' (fun c hc c' hc' d => ?_) d).symm
  by_cases hsame : c = c'
  · rw [hsame]
  · refine Clause.apply_comm (hne c hc) (hne c' hc') (fun k hk hk' => hsame ?_) d
    exact List.inj_on_of_nodup_map honce hc hc'
      ((c.written.kind_of_clause hk).trans (c'.written.kind_of_clause hk').symm)

/-- **Clauses in any order.** A column with at most one clause of each kind, and no `NULL`, is the
same whatever the order of its clauses: what they make, one by one, of its name and its type. -/
theorem column_clauses_perm {t : Token} (ht : nameOf? t = some n) {type : List Token}
    {w : WrittenType} (htype : writtenType n type = .ok (w, []))
    {clauses clauses' : List (WrittenClause n)} (honce : (clauses.map (·.kind)).Nodup)
    (hnull : ∀ c ∈ clauses, c.kind ≠ .null) (hperm : clauses'.Perm clauses) (hτ : Closes τ) :
    column dialect table (t :: (type ++ (clauses'.flatMap (·.tokens) ++ τ))) =
      .ok (columnOf dialect table n w (clauses.map (·.clause)), τ) := by
  have hone : clauses'.Pairwise fun c c' => c.kind = .default → c'.kind ≠ .default := by
    have hnodup : (clauses'.map (·.kind)).Nodup := (hperm.map _).nodup_iff.2 honce
    refine (List.pairwise_map.1 hnodup).imp fun {c c'} hne hc hc' => hne (hc.trans hc'.symm)
  obtain ⟨cs, hcs, heffect⟩ := reads_clauses hone (.element hτ) fun _ => hτ.ne_keyword .default
  rw [column_of_clauses ht htype (endsClause_clauses clauses' (.element hτ)).stopsType hcs hτ]
  simp only [columnOf, heffect, foldl_clauses_perm honce hnull hperm]

/-- A reference, a default and `NOT NULL`, in this order and read in the other one. -/
theorem column_clauses_perm_of_three :
    column .generic "orders" [.ident "owner", .ident "INT", .keyword .references, .ident "users",
        .lparen, .ident "id", .rparen, .keyword .on, .keyword .delete, .keyword .cascade,
        .keyword .default, .num "0", .keyword .not, .keyword .null, .comma] =
      .ok (columnOf .generic "orders" "owner" (wordsType "INT" []) [.required, .default "0",
        .reference {
          name := none
          columns := ["owner"]
          targetTable := "users"
          targetColumns := some ["id"]
          onDelete := .cascade
          onUpdate := .noAction }], [.comma]) := by
  let required : WrittenClause "owner" := ⟨.notNull, _, _, .notNull⟩
  let zero : WrittenClause "owner" := ⟨.default, [.keyword .default, .num "0"], _,
    .default (.token nofun nofun nofun nofun .nil)⟩
  let users : WrittenClause "owner" := ⟨.references, _, _,
    .references (.last (t := .ident "users") rfl) (.present (t := .ident "id") rfl)
      (.present .cascade) .absent⟩
  have hname : nameOf? (.ident "owner") = some "owner" := rfl
  have hwords : ∀ word ∈ ([] : List String),
      typeContinuations.contains (Text.toLower word) = true := nofun
  have htype : writtenType "owner" [.ident "INT"] = .ok (wordsType "INT" [], []) :=
    writtenType_words "owner" (.inl rfl) hwords
  have honce : ([required, zero, users].map (·.kind)).Nodup := by decide
  have hnull : ∀ c ∈ [required, zero, users], c.kind ≠ .null := by simp [required, zero, users]
  have hperm : [users, zero, required].Perm [required, zero, users] :=
    List.reverse_perm [required, zero, users]
  exact column_clauses_perm hname htype honce hnull hperm (.comma [])

end CrudGen.Sql.Parser
