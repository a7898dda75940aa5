import CrudGen.Proofs.Sql.References
import CrudGen.Proofs.Sql.Rounds

/-!
# Parsers — what each of them comes to

Going up from single tokens to statements, every parser is shown to agree with what it comes to
without a bound on its repetitions, and every round that it repeats to advance.

Main results:

* `agrees_statement` — the parser of statements agrees, whatever tokens it finds.
* `Repeated.advances` — a round that goes on has read something, whatever it finds.
-/

namespace CrudGen.Sql.Parser

variable {α β σ : Type} {p : Parser α} {f : α → Parser β}

-- ---------------------------------------------------------------------------
-- Tokens and names
-- ---------------------------------------------------------------------------

/-- A closing parenthesis is an edge, so whatever is shown in front of an edge can be used anywhere.
-/
theorem plainEdge_rparen : PlainEdge [.rparen] [.rparen] :=
  plainEdge_of_closes (List.cons_ne_nil _ _) (.rparen []) (.rparen [])

/-- A choice of one token: it is taken, or nothing is. -/
theorem agrees_accept (q : Token → Bool) : Agrees (accept q) :=
  .look fun _ => .ite (.bind .advance fun _ => .pure _) (.pure _)

/-- A token that has to be there, or the statement fails. -/
theorem agrees_expect (token : Token) (what : String) : Agrees (expect token what) :=
  .look fun _ => .ite .advance (.refuse _)

/-- A word that has to be there, or the statement fails. -/
theorem agrees_expectWord (word : String) : Agrees (expectWord word) :=
  .look fun _ => .ite .advance (.refuse _)

/-- A name is one token. -/
theorem agrees_name (what : String) : Agrees (name what) := by
  refine .look fun t => ?_
  split
  · exact .bind .advance fun _ => .pure _
  · exact .refuse _

/-- A name goes on behind a dot only, and the dot is read. -/
theorem advances_namePart (what : String) (parts : List String) : Advances (namePart what parts) :=
  .accept rfl (.bind (agrees_name what) fun _ => .pure _) (by rintro _ _ _ ⟨⟩)

/-- One more part of a name, or its end. -/
theorem agrees_namePart (what : String) (parts : List String) : Agrees (namePart what parts) :=
  .bind (agrees_accept _) fun _ => .ite (.bind (agrees_name what) fun _ => .pure _) (.pure _)

/-- A name with dots is a part and then more of them, again and again. -/
theorem agrees_nameParts (what : String) : Agrees (nameParts what) :=
  .bind (agrees_name what) fun _ =>
    .iterate (.namePart what) (agrees_namePart what) (advances_namePart what) _

/-- What a name with dots refers to is its last part. -/
theorem agrees_qualifiedName (what : String) : Agrees (qualifiedName what) :=
  .bind (agrees_nameParts what) fun _ => .pure _

/-- An identifier that may be missing. -/
theorem agrees_identifier? : Agrees identifier? := by
  refine .look fun t => ?_
  split
  · exact .bind .advance fun _ => .pure _
  · exact .pure _

/-- A group in parentheses comes to what the search for its closing parenthesis comes to. -/
theorem agrees_skipParenthesized : Agrees skipParenthesized :=
  .bind (agrees_expect _ _) fun _ => Unbounded.closing

/-- The rest of an element comes to what the search for its end comes to. -/
theorem agrees_skipElement : Agrees skipElement :=
  Unbounded.element

/-- The words `IF EXISTS` and `IF NOT EXISTS`. -/
theorem agrees_skipIfExists : Agrees skipIfExists :=
  .bind (agrees_accept _) fun _ => .ite (.bind (.discard (agrees_accept _)) fun _ =>
    .bind (agrees_expect _ _) fun _ => .pure _) (.pure _)

/-- A group is at least its opening parenthesis. -/
theorem eager_skipParenthesized : Eager skipParenthesized :=
  (consumes_skipParenthesized (Q := True) plainEdge_rparen.toEdge).eager

/-- A name is at least one token. -/
theorem eager_name (what : String) : Eager (name what) :=
  (consumes_name (Q := True) plainEdge_rparen.toEdge what).eager

-- ---------------------------------------------------------------------------
-- Lists of columns
-- ---------------------------------------------------------------------------

/-- What may stand behind a column of a list: a length, or the order of it. -/
theorem agrees_columnSuffix : Agrees (columnSuffix ()) :=
  .look fun _ => .ite (.bind agrees_skipParenthesized fun _ => .pure _)
    (.ite (.bind .advance fun _ => .pure _) (.pure _))

/-- A suffix that is read is a token at least, and where there is none the rounds end. -/
theorem advances_columnSuffix : Advances (columnSuffix ()) := by
  refine .look (by rintro _ _ ⟨⟩) fun t more s rest h => ?_
  split at h
  · exact (eager_skipParenthesized.then fun _ => .pure _) h
  · split at h
    · exact (Eager.advance.then fun _ => .pure _) h
    · cases h

/-- Suffixes are read until there is none. -/
theorem agrees_skipColumnSuffixes : Agrees skipColumnSuffixes :=
  .iterate .columnSuffix (fun _ => agrees_columnSuffix) (fun _ => advances_columnSuffix) ()

/-- A column of a list, the comma before it, or the end of the list. -/
theorem agrees_listColumn (columns : List String) : Agrees (listColumn columns) := by
  refine .look fun t => ?_
  split
  · exact .bind .advance fun _ => .pure _
  · exact .throw _
  · exact .bind .advance fun _ => .pure _
  · exact .bind (agrees_name _) fun _ => .bind agrees_skipColumnSuffixes fun _ => .pure _

/-- A list goes on with a comma or with a column, and so with a token. -/
theorem advances_listColumn (columns : List String) : Advances (listColumn columns) :=
  .of_eager (consumes_listColumn (Q := True) plainEdge_rparen.toEdge columns).eager
    (by rintro _ _ ⟨⟩)

/-- A list of columns is read to its parenthesis, and may not be empty. -/
theorem agrees_columnList : Agrees columnList :=
  .bind (agrees_expect _ _) fun _ =>
    .bind (.iterate .listColumn agrees_listColumn advances_listColumn _) fun _ =>
      .ite (.bind (.throw _) fun _ => .pure _) (.pure _)

-- ---------------------------------------------------------------------------
-- Types
-- ---------------------------------------------------------------------------

/-- One more part of a type that is written with dots. -/
theorem agrees_typePart (n : String) : Agrees (typePart n) :=
  .bind (agrees_accept _) fun _ => .ite (.bind (agrees_name _) fun _ => .pure _) (.pure _)

/-- A type goes on behind a dot only. -/
theorem advances_typePart (n : String) : Advances (typePart n) :=
  .accept rfl (.bind (agrees_name _) fun _ => .pure _) (by rintro _ _ _ ⟨⟩)

/-- The parameters of a type come to what the search for their parenthesis comes to. -/
theorem agrees_typeArguments : Agrees (typeArguments : Parser TypeArguments) :=
  Unbounded.arguments

/-- What may stand behind the name of a type: parameters, brackets, or a word that goes on with it.
-/
theorem agrees_typeSuffix (w : WrittenType) : Agrees (typeSuffix w) := by
  refine .look fun t => ?_
  split
  · exact .bind .advance fun _ => .bind agrees_typeArguments fun _ => .pure _
  · exact .ite (.bind .advance fun _ => .pure _) (.pure _)
  · exact .bind .advance fun _ => .pure _
  · exact .pure _

/-- Each suffix of a type is read from a token of its own. -/
theorem advances_typeSuffix (w : WrittenType) : Advances (typeSuffix w) := by
  refine .look (by rintro _ _ ⟨⟩) fun t more s rest h => ?_
  split at h
  · exact (Eager.advance.then fun _ => .bind agrees_typeArguments fun _ => .pure _) h
  · dsimp only at h
    -- a suffix is read only if the type goes on, and then its token is
    split at h
    · exact (Eager.advance.then fun _ => .pure _) h
    · cases h
  · exact (Eager.advance.then fun _ => .pure _) h
  · cases h

/-- A type is a name and its suffixes, whatever its first token is. -/
theorem agrees_writtenType (column : String) : Agrees (writtenType column) := by
  have hrest (first : String) : Agrees (typeFrom first) :=
    .bind (.iterate .typePart agrees_typePart advances_typePart _) fun _ =>
      .iterate .typeSuffix agrees_typeSuffix advances_typeSuffix _
  refine .look fun t => ?_
  split
  · exact .bind .advance fun _ => hrest _
  · exact .bind .advance fun _ => hrest _
  · exact .bind (.throw _) fun _ => hrest _

-- ---------------------------------------------------------------------------
-- References
-- ---------------------------------------------------------------------------

/-- An action is one word or two. -/
theorem agrees_referentialAction : Agrees referentialAction := by
  have hrest (action : ReferentialAction) : Agrees (do advance; return action : Parser _) :=
    .bind .advance fun _ => .pure _
  refine .look fun t => .ite (hrest _) (.ite (hrest _) (.ite (.bind .advance fun _ => .look fun t => ?_)
    (.ite (.bind .advance fun _ => .look fun t => .ite (hrest _) (.bind (.refuse _) hrest))
      (.bind (.refuse _) hrest))))
  -- two words that begin alike are told apart by the word behind them
  split
  · exact hrest _
  · exact hrest _
  · exact .bind (.refuse _) hrest

/-- An action stands behind one of two words. -/
theorem agrees_referenceEvent (actions : ReferentialAction × ReferentialAction) :
    Agrees (referenceEvent actions) := by
  refine .look fun t => ?_
  split
  · exact .bind .advance fun _ => .bind agrees_referentialAction fun _ => .pure _
  · exact .bind .advance fun _ => .bind agrees_referentialAction fun _ => .pure _
  · exact .refuse _

/-- A clause of a reference is chosen by two tokens, and only the second choice looks at the next
one. -/
theorem agrees_referenceClause (actions : ReferentialAction × ReferentialAction) :
    Agrees (referenceClause actions) := by
  rw [referenceClause_eq]
  refine .look fun t => .peek 1 fun u => .ite (.bind .advance fun _ => agrees_referenceEvent actions)
    (.ite ?_ (.ite ?_ (.ite ?_ (.pure _))))
  · exact .bind .advance fun _ => .bind .advance fun _ => .pure _
  · exact .bind .advance fun _ => .bind (.discard (agrees_accept _)) fun _ => .pure _
  · exact .bind .advance fun _ => .bind .advance fun _ => .pure _

/-- Every clause of a reference begins with a word that is read. -/
theorem advances_referenceClause (actions : ReferentialAction × ReferentialAction) :
    Advances (referenceClause actions) := by
  rw [referenceClause_eq]
  refine .look (by rintro _ _ ⟨⟩) fun t more s rest h => ?_
  change (ite _ _ _ : Parser _) (t :: more) = _ at h
  split at h
  · exact (Eager.advance.then fun _ => agrees_referenceEvent actions) h
  split at h
  · exact (Eager.advance.then fun _ => .bind .advance fun _ => .pure _) h
  split at h
  · exact (Eager.advance.then fun _ => .bind (.discard (agrees_accept _)) fun _ => .pure _) h
  split at h
  · exact (Eager.advance.then fun _ => .bind .advance fun _ => .pure _) h
  · cases h

/-- A reference is a table, a list of columns if there is one, and clauses. -/
theorem agrees_reference (columns : List String) (constraint : Option String) :
    Agrees (reference columns constraint) := by
  rw [reference_eq]
  have hrest (table : String) (targetColumns : Option (List String)) :
      Agrees (referenceBehind constraint columns table targetColumns) :=
    .bind (.iterate .referenceClause agrees_referenceClause advances_referenceClause _) fun _ => .pure _
  exact .bind (agrees_qualifiedName _) fun _ => .look fun _ =>
    .ite (.bind (.map agrees_columnList _) fun _ => hrest _ _) (.bind (.pure _) fun _ => hrest _ _)

-- ---------------------------------------------------------------------------
-- Columns
-- ---------------------------------------------------------------------------

/-- A default comes to what the search for its end comes to, and may not be empty. -/
theorem agrees_defaultExpression : Agrees defaultExpression :=
  .bind Unbounded.default fun _ =>
    .ite (.bind (.refuse _) fun _ => .pure _) (.pure _)

/-- What a keyword stands for in a column, keyword by keyword. -/
theorem agrees_keywordClauseOf (n : String) (k : Keyword) : Agrees (keywordClauseOf n k) := by
  -- each clause is put together from parsers that agree
  cases k <;> simp only [keywordClauseOf]
  case primary => exact .bind (agrees_expect _ _) fun _ => .pure _
  case not =>
    exact .look fun _ => .ite (.bind .advance fun _ => .pure _)
      (.ite (.bind .advance fun _ => .pure _) (.refuse _))
  case null => exact .pure _
  case unique => exact .bind (.discard (agrees_accept _)) fun _ => .pure _
  case default => exact .bind agrees_defaultExpression fun _ => .pure _
  case references => exact .bind (agrees_reference _ _) fun _ => .pure _
  case check => exact .bind agrees_skipParenthesized fun _ => .pure _
  case collate => exact .bind (.discard (agrees_qualifiedName _)) fun _ => .pure _
  case comment =>
    refine .look fun t => ?_
    split
    · exact .bind .advance fun _ => .pure _
    · exact .pure _
  case increment => exact .pure _
  case constraint => exact .bind (.discard (agrees_name _)) fun _ => .pure _
  case on =>
    exact .bind (.discard (agrees_accept _)) fun _ => .bind .advance fun _ => .look fun _ =>
      .ite (.bind agrees_skipParenthesized fun _ => .pure _) (.pure _)
  all_goals exact .pure _

/-- A clause ends at a comma, at a parenthesis and with the tokens, and is read behind its first
token otherwise. -/
theorem agrees_clauseOf (n : String) : Agrees (clauseOf n) := by
  refine .look fun t => ?_
  unfold clauseFrom
  split
  · exact .pure _
  · exact .pure _
  · exact .pure _
  · exact .bind .advance fun _ => .bind (agrees_keywordClauseOf n _) fun _ => .pure _
  · exact .bind agrees_skipParenthesized fun _ => .pure _
  · exact .bind .advance fun _ => .pure _

/-- A round of clauses reads one of them. -/
theorem agrees_columnClause (d : ColumnDraft) : Agrees (columnClause d) :=
  columnClause_eq d ▸ .map (agrees_clauseOf _) _

/-- A clause that is read is a token at least. -/
theorem advances_columnClause (d : ColumnDraft) : Advances (columnClause d) := by
  rw [columnClause_eq]
  intro ts s rest h
  change (clauseOf _ >>= fun clause => pure (Clause.step d clause)) ts = _ at h
  obtain ⟨clause, left, hclause, hstep⟩ := bind_eq_ok h
  change clauseFrom _ (front ts) ts = _ at hclause
  by_cases hfront : front ts ≠ .comma ∧ front ts ≠ .rparen ∧ front ts ≠ .eof
  · obtain ⟨more, hmore⟩ := cons_of_front rfl hfront.2.2
    have hclauses := consumes_clauseFrom (Q := False) plainEdge_rparen.toEdge d.column.name hfront
      fun _ => False.elim
    have hle := hclauses.eager hclause
    have hpos : 0 < ts.length := hmore ▸ Nat.succ_pos _
    obtain rfl : left = rest := congrArg Prod.snd (Except.ok.inj hstep)
    omega
  · -- the clause ends here, and so do the rounds
    rw [clauseFrom_none _ hfront] at hclause
    cases hclause
    cases hstep

/-- A column is a name, a type and clauses. -/
theorem agrees_column (dialect : Dialect) (table : String) : Agrees (column dialect table) :=
  .bind (agrees_name _) fun _ => .bind (agrees_writtenType _) fun _ =>
    .bind (.iterate .columnClause agrees_columnClause advances_columnClause _) fun _ => .pure _

-- ---------------------------------------------------------------------------
-- Tables
-- ---------------------------------------------------------------------------

/-- The columns of an index, behind its name and with or without a method. -/
theorem agrees_indexOf (indexName : Option String) : Agrees (indexOf indexName) :=
  .bind (agrees_accept _) fun _ => .ite
    (.bind (.discard (agrees_name _)) fun _ => .bind agrees_columnList fun _ => .pure _)
    (.bind agrees_columnList fun _ => .pure _)

/-- An index is named by an identifier, unless that is the word of its method. -/
theorem agrees_indexBody : Agrees indexBody := by
  refine .look fun t => ?_
  split
  · exact .ite (agrees_indexOf _) (.bind .advance fun _ => agrees_indexOf _)
  · exact agrees_indexOf _

/-- A constraint is read by its first word. -/
theorem agrees_constraintFrom (constraint : Option String) (t : Token) :
    Agrees (constraintFrom constraint t) := by
  have hunique (indexName : Option String) : Agrees (uniqueOf (constraint.or indexName)) :=
    .bind agrees_columnList fun _ => .bind agrees_skipElement fun _ => .pure _
  unfold constraintFrom
  split
  · exact .bind .advance fun _ => .bind (agrees_expect _ _) fun _ =>
      .bind agrees_columnList fun _ => .pure _
  · exact .bind .advance fun _ => .bind (.discard (agrees_accept _)) fun _ => .peek 1 fun _ =>
      .ite (.bind agrees_identifier? hunique) (hunique _)
  · exact .bind .advance fun _ => .bind (agrees_expect _ _) fun _ =>
      .bind agrees_identifier? fun _ => .bind agrees_columnList fun _ =>
        .bind (agrees_expect _ _) fun _ => .bind (agrees_reference _ _) fun _ => .pure _
  · exact .bind .advance fun _ => .bind agrees_skipParenthesized fun _ =>
      .bind agrees_skipElement fun _ => .pure _
  · exact .bind .advance fun _ => .bind agrees_indexBody fun _ => .pure _
  · exact .bind .advance fun _ => .bind agrees_indexBody fun _ => .pure _
  · exact .ite (.bind agrees_skipElement fun _ => .pure _) (.refuse _)

/-- A constraint of a table, behind its name if it has one. -/
theorem agrees_tableConstraint (constraint : Option String) : Agrees (tableConstraint constraint) :=
  .look (agrees_constraintFrom constraint)

/-- What an entry adds to a table is no matter of tokens. -/
theorem agrees_entering (d : TableDraft) (e : Entry) : Agrees (entering d e) :=
  .bind (.lift _) fun _ => .pure _

/-- A table goes on with a comma or an entry, and both are a token at least. -/
theorem advances_tableElement (dialect : Dialect) (table : String) (d : TableDraft) :
    Advances (tableElement dialect table d) := by
  rw [tableElement_eq]
  refine .look (by rintro _ _ ⟨⟩) fun t more s rest h => ?_
  split at h
  · cases h
  · cases h
  · cases h
    exact Nat.le_refl _
  · obtain ⟨e, left, he, hentering⟩ := bind_eq_ok h
    have hle := eager_entry dialect table (show entry dialect table (t :: more) = _ from he)
    exact Nat.le_trans ((agrees_entering d e).suffix hentering).length_le hle

/-- What stands behind a column of an index, or nothing. -/
theorem agrees_indexOption : Agrees (indexOption ()) := by
  refine .look fun t => ?_
  split
  · exact .pure _
  · exact .pure _
  · exact .pure _
  · exact .bind agrees_skipParenthesized fun _ => .pure _
  · exact .bind .advance fun _ => .pure _

/-- What is dropped behind a column of an index is a group or a token. -/
theorem advances_indexOption : Advances (indexOption ()) := by
  refine .look (by rintro _ _ ⟨⟩) fun t more s rest h => ?_
  split at h
  · cases h
  · cases h
  · cases h
  · exact (eager_skipParenthesized.then fun _ => .pure _) h
  · exact (Eager.advance.then fun _ => .pure _) h

/-- Options are dropped up to the next column. -/
theorem agrees_skipIndexOptions : Agrees skipIndexOptions :=
  .iterate .indexOption (fun _ => agrees_indexOption) (fun _ => advances_indexOption) ()

/-- Whether a group behind a column is a length or a call is seen from its first two tokens. -/
theorem indexCall_eq : indexCall = current >>= fun t => peek 1 >>= fun u =>
    if t == .lparen then do
      skipParenthesized
      return match u with
        | .num _ => false
        | _ => true
    else return false := by
  funext ts
  match ts with
  | [] => rfl
  | [t] => cases t <;> rfl
  | t :: u :: more =>
    cases t with
    | lparen => cases u <;> rfl
    | _ => rfl

/-- A group behind a column of an index. -/
theorem agrees_indexCall : Agrees indexCall :=
  indexCall_eq ▸ .look fun _ => .peek 1 fun _ =>
    .ite (.bind agrees_skipParenthesized fun _ => .pure _) (.pure _)

/-- A column of an index with what stands behind it. -/
theorem agrees_indexColumn (d : IndexDraft) (column : String) : Agrees (indexColumn d column) :=
  .bind agrees_indexCall fun _ => .bind agrees_skipIndexOptions fun _ => .pure _

/-- Columns of an index go on with a comma, a group or a name. -/
theorem advances_indexElement (d : IndexDraft) : Advances (indexElement d) := by
  refine .look (by rintro _ _ ⟨⟩) fun t more s rest h => ?_
  split at h
  · cases h
  · cases h
  · exact (Eager.advance.then fun _ => .pure _) h
  · exact (eager_skipParenthesized.then fun _ => .pure _) h
  · exact ((eager_name _).then fun column => agrees_indexColumn d column) h

/-- A number has to be an integer. -/
theorem agrees_integer : Agrees integer := by
  refine .look fun t => ?_
  split
  · split
    · exact .bind .advance fun _ => .pure _
    · exact .throw _
  · exact .refuse _

/-- What an option of a sequence says behind its first word. -/
theorem agrees_optionFrom (s : Sequence) (t : Token) : Agrees (optionFrom s t) := by
  refine .ite ?_ (.ite ?_ (.ite ?_ (.pure _)))
  · exact .bind (.discard (agrees_accept _)) fun _ => .bind agrees_integer fun _ => .pure _
  · exact .bind (.discard (agrees_accept _)) fun _ => .bind agrees_integer fun _ => .pure _
  · refine .bind (agrees_expectWord _) fun _ => .bind (agrees_accept _) fun _ => .ite (.pure _)
      (.bind (agrees_nameParts _) fun parts => ?_)
    split
    · exact .pure _
    · exact .refuse _

/-- An option of a sequence begins with a word that is read. -/
theorem advances_sequenceOption (s : Sequence) : Advances (sequenceOption s) := by
  rw [sequenceOption]
  refine .look (by rintro _ _ ⟨⟩) fun t more s' rest h => ?_
  split at h
  · cases h
  · exact (Eager.advance.then fun _ => agrees_optionFrom s t) h

/-- Labels go on with a token. -/
theorem advances_enumLabel (labels : List String) : Advances (enumLabel labels) := by
  refine .look (by rintro _ _ ⟨⟩) fun t more s rest h => ?_
  split at h
  · cases h
  · exact (Eager.advance.then fun _ => .pure _) h
  · exact (Eager.advance.then fun _ => .pure _) h
  · exact Eager.refuse _ h

/-- A modifier is a word. -/
theorem advances_modifier : Advances (modifier ()) :=
  .accept (by decide) (.pure _) (by rintro _ _ _ ⟨⟩)

/-- What is added to a table is seen from its first word. -/
theorem agrees_addition (dialect : Dialect) (table : String) (constraint : Option String) :
    Agrees (addition dialect table constraint) := by
  have hconstraint : Agrees (do return TableConstraint.action? (← tableConstraint constraint)) :=
    .bind (agrees_tableConstraint _) fun _ => .pure _
  refine .look fun t => ?_
  split
  · exact hconstraint
  · exact hconstraint
  · exact hconstraint
  · exact hconstraint
  · exact .bind .advance fun _ => .bind agrees_indexBody fun _ => .pure _
  · exact .bind .advance fun _ => .bind agrees_indexBody fun _ => .pure _
  · exact .bind (.discard (agrees_accept _)) fun _ => .bind (.discard agrees_skipIfExists) fun _ =>
      .bind (agrees_column dialect table) fun _ => .pure _

/-- An addition may be named as a constraint. -/
theorem agrees_alterAdd (dialect : Dialect) (table : String) : Agrees (alterAdd dialect table) :=
  .bind (agrees_accept _) fun _ => .ite
    (.bind (.map (agrees_name _) _) fun _ => agrees_addition dialect table _)
    (.bind (.pure _) fun _ => agrees_addition dialect table _)

/-- A change of a column is read only if it sets a default. -/
theorem agrees_alterColumn : Agrees alterColumn :=
  .bind (.discard (agrees_accept _)) fun _ => .bind (agrees_name _) fun _ => .look fun _ =>
    .peek 1 fun _ => .ite (.bind .advance fun _ => .bind .advance fun _ =>
      .bind agrees_defaultExpression fun _ => .pure _) (.bind agrees_skipElement fun _ => .pure _)

/-- An element is more than its first token, unless it has none. -/
theorem length_fromElementEnd_cons {t : Token} (hcomma : t ≠ .comma) (hrparen : t ≠ .rparen)
    (more : List Token) : (fromElementEnd 0 (t :: more)).length ≤ more.length := by
  have hdepth : ∃ depth, fromElementEnd 0 (t :: more) = fromElementEnd depth more := by
    cases t with
    | comma => exact absurd rfl hcomma
    | rparen => exact absurd rfl hrparen
    | lparen => exact ⟨1, rfl⟩
    | _ => exact ⟨0, rfl⟩
  obtain ⟨depth, hdepth⟩ := hdepth
  exact hdepth ▸ (fromElementEnd_suffix depth more).length_le

/-- Changes go on with a comma or a word, and what is not read is dropped up to the next comma. -/
theorem advances_alterElement (dialect : Dialect) (table : String) (actions : List AlterAction) :
    Advances (alterElement dialect table actions) := by
  refine .look (by rintro _ _ ⟨⟩) fun t more s rest h => ?_
  split at h
  · cases h
  · exact (Eager.advance.then fun _ => .pure _) h
  · exact (Eager.advance.then fun _ => .pure _) h
  · exact (Eager.advance.then fun _ => .bind (agrees_alterAdd dialect table) fun _ => .pure _) h
  · exact (Eager.advance.then fun _ => .bind agrees_alterColumn fun _ => .pure _) h
  · rename_i hcomma hrparen _ _
    cases h
    exact length_fromElementEnd_cons hcomma hrparen more

/-- No repetition is ended because a round has read nothing. -/
theorem Repeated.advances {round : σ → Parser (ForInStep σ)} (h : Repeated round) (s : σ) :
    Advances (round s) := by
  cases h with
  | namePart what => exact advances_namePart what s
  | columnSuffix => exact advances_columnSuffix
  | listColumn => exact advances_listColumn s
  | typePart => exact advances_typePart s
  | typeSuffix => exact advances_typeSuffix s
  | referenceClause => exact advances_referenceClause s
  | columnClause => exact advances_columnClause s
  | tableElement dialect table => exact advances_tableElement dialect table s
  | indexOption => exact advances_indexOption
  | indexElement => exact advances_indexElement s
  | sequenceOption => exact advances_sequenceOption s
  | enumLabel => exact advances_enumLabel s
  | modifier => exact advances_modifier
  | alterElement dialect table => exact advances_alterElement dialect table s

end CrudGen.Sql.Parser
