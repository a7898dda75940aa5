import CrudGen.Proofs.Sql.Parts

/-!
# Statements — what is made only if it is not there

Tables, sequences, indexes and columns can be asked for with the words `IF NOT EXISTS`. Of these four
only the definition of a table keeps the words (`Guarded.reads`).
-/

namespace CrudGen.Sql.Parser

variable {dialect : Dialect} {ts rest left words : List Token}

/-- What a statement can ask for if it is not there. -/
inductive Made where
  | table | sequence | index | column
  deriving DecidableEq, Repr

/-- The words that ask for something if it is not there. -/
def guardTokens : List Token :=
  [.keyword .ifWord, .keyword .not, .keyword .existsWord]

/-- Statements with the words `IF NOT EXISTS` in front of what they make. -/
inductive Guarded : Made → List Token → Prop
  | table {words rest : List Token} (hwords : ∀ t ∈ words, isOneOf createModifiers t = true) :
      Guarded .table
        (.keyword .create :: (words ++ .keyword .table :: (guardTokens ++ rest)))
  | sequence {words rest : List Token} (hwords : ∀ t ∈ words, isOneOf createModifiers t = true) :
      Guarded .sequence
        (.keyword .create :: (words ++ .keyword .sequence :: (guardTokens ++ rest)))
  | index {words unique concurrently rest : List Token}
      (hwords : ∀ t ∈ words, isOneOf createModifiers t = true)
      (hunique : unique = [] ∨ unique = [.keyword .unique])
      (hword : concurrently = [] ∨ ∃ t, isWord "CONCURRENTLY" t = true ∧ concurrently = [t]) :
      Guarded .index (.keyword .create ::
        (words ++ (unique ++ .keyword .index :: (concurrently ++ (guardTokens ++ rest)))))
  | column {opening named word rest : List Token} {table : String}
      (hopening : opening ∈ [[], [.keyword .only], [.keyword .ifWord, .keyword .existsWord],
        [.keyword .ifWord, .keyword .existsWord, .keyword .only]])
      (hnamed : DottedName named table) (hif : front named ≠ .keyword .ifWord)
      (honly : front named ≠ .keyword .only)
      (hword : word = [] ∨ ∃ t, isWord "COLUMN" t = true ∧ word = [t]) :
      Guarded .column (.keyword .alter :: .keyword .table ::
        (opening ++ (named ++ .keyword .add :: (word ++ (guardTokens ++ rest)))))

/-- What a statement with the words `IF NOT EXISTS` is read as. -/
def ReadsAs : Made → Statement → Prop
  | .table, s => s = .skipped ∨ ∃ t : TableDefinition, t.ifNotExists = true ∧ s = .createTable t
  | .sequence, s => ∃ q, s = .createSequence q
  | .index, s => ∃ table index, s = .change (.index table index)
  | .column, s => ∃ table d more, s = .change (.alter table (.addColumn d :: more))

-- ---------------------------------------------------------------------------
-- Words in front
-- ---------------------------------------------------------------------------

theorem skipIfExists_guard (rest : List Token) :
    skipIfExists (guardTokens ++ rest) = .ok (true, rest) :=
  rfl

/-- Words between `CREATE` and what it creates are dropped. -/
theorem modifiers_words (hwords : ∀ t ∈ words, isOneOf createModifiers t = true)
    (hend : isOneOf createModifiers (front rest) = false) :
    modifiers (words ++ rest) = .ok ((), rest) := by
  induction words with
  -- behind the words stands none of them, so the loop ends
  | nil =>
    have haccept : accept (isOneOf createModifiers) rest = .ok (false, rest) := by
      rw [accept_eq, hend]
      rfl
    rw [List.nil_append, modifiers, iterate, modifier, bind_of_ok haccept]
    rfl
  | cons t more ih =>
    rw [List.forall_mem_cons] at hwords
    have haccept : accept (isOneOf createModifiers) (t :: (more ++ rest)) =
        .ok (true, more ++ rest) := by
      rw [accept_eq, if_pos]
      · rfl
      · exact hwords.1
    have hround : modifier () (t :: (more ++ rest)) = .ok (.yield (), more ++ rest) := by
      rw [modifier, bind_of_ok haccept]
      rfl
    exact (Comes.round hround (Nat.lt_succ_self _) (.refl _ _)).iterate_eq.trans (ih hwords.2)

/-- What stands behind the words in front is read from its first word on. -/
theorem statement_create (hwords : ∀ t ∈ words, isOneOf createModifiers t = true)
    (hend : isOneOf createModifiers (front rest) = false) :
    statement dialect (.keyword .create :: (words ++ rest)) = create dialect rest := by
  have hnone : modifiers rest = .ok ((), rest) :=
    show modifiers ([] ++ rest) = _ from modifiers_words nofun hend
  change (modifiers >>= fun _ => current >>= _) (words ++ rest) =
    (modifiers >>= fun _ => current >>= _) rest
  rw [bind_of_ok (modifiers_words hwords hend), bind_of_ok hnone]

/-- What `CREATE` makes is read by the word behind it. -/
theorem create_made (ts : List Token) :
    create dialect (.keyword .table :: ts) = createTable dialect ts ∧
      create dialect (.keyword .sequence :: ts) = createSequence ts ∧
      create dialect (.keyword .index :: ts) = createIndex false ts ∧
      create dialect (.keyword .unique :: .keyword .index :: ts) = createIndex true ts := by
  have hnone (k : Keyword) (ts : List Token) :
      modifiers (.keyword k :: ts) = .ok ((), .keyword k :: ts) :=
    show modifiers ([] ++ .keyword k :: ts) = _ from modifiers_words nofun rfl
  refine ⟨?_, ?_, ?_, ?_⟩
  all_goals
    change (modifiers >>= fun _ => current >>= _) _ = _
    rw [bind_of_ok (hnone _ _)]
    rfl

-- ---------------------------------------------------------------------------
-- What is read
-- ---------------------------------------------------------------------------

/-- A definition keeps whether its table was asked for in case it is not there. -/
theorem TableDraft.ifNotExists_definition {d : TableDraft} {table : String} {asked : Bool}
    {t : TableDefinition} (h : d.definition table asked = .ok t) : t.ifNotExists = asked := by
  unfold TableDraft.definition at h
  dsimp only at h
  split at h
  · cases h
  · split at h
    · cases h
    · obtain ⟨_, -, hmade⟩ := ok_of_bind h
      cases hmade
      rfl

theorem reads_table {s : Statement}
    (h : createTable dialect (guardTokens ++ rest) = .ok (s, left)) : ReadsAs .table s := by
  change (skipIfExists >>= fun _ => _) (guardTokens ++ rest) = _ at h
  rw [bind_of_ok (skipIfExists_guard rest)] at h
  obtain ⟨table, elements, -, h⟩ := bind_eq_ok h
  obtain ⟨paren, elements', -, h⟩ := bind_eq_ok h
  cases paren with
  | false =>
    cases h
    exact .inl rfl
  | true =>
    obtain ⟨d, left', -, h⟩ := bind_eq_ok h
    obtain ⟨t, left'', ht, h⟩ := bind_eq_ok h
    cases h
    exact .inr ⟨t, TableDraft.ifNotExists_definition (lift_eq_ok ht).1, rfl⟩

/-- Behind its first part, a change has more parts. -/
theorem prefix_of_alterElement {table : String} {actions : List AlterAction}
    {next : ForInStep (List AlterAction)}
    (h : alterElement dialect table actions ts = .ok (next, rest)) : actions <+: next.value := by
  have hpart : Yields (alterElement dialect table actions) fun next => actions <+: next.value := by
    refine .next fun t => ?_
    split
    · exact .pure List.prefix_rfl
    · exact .next fun _ => .pure List.prefix_rfl
    · exact .next fun _ => .pure List.prefix_rfl
    · exact .next fun _ => .next fun _ => .pure (List.prefix_append _ _)
    · exact .next fun _ => .next fun _ => .pure (List.prefix_append _ _)
    · exact .next fun _ => .pure List.prefix_rfl
  exact hpart _ _ _ h

/-- A change begins with the column that its first part adds. -/
theorem actions_of_first {table : String} {actions : List AlterAction}
    (hfirst : YieldsAt (alterElement dialect table []) ts fun next _ =>
      ∃ d, next = .yield [.addColumn d])
    (h : iterate (alterElement dialect table) [] ts = .ok (actions, rest)) :
    ∃ d more, actions = .addColumn d :: more := by
  rw [iterate] at h
  cases hround : alterElement dialect table [] ts with
  | error e =>
    rw [hround] at h
    cases h
  | ok r =>
    obtain ⟨next, left⟩ := r
    obtain ⟨d, rfl⟩ := hfirst _ _ hround
    rw [hround] at h
    dsimp only at h
    split at h
    · have hmore : Yields (iterate (alterElement dialect table) [.addColumn d]) fun actions =>
          [.addColumn d] <+: actions :=
        .iterate List.prefix_rfl fun _ hactions _ _ _ hnext =>
          hactions.trans (prefix_of_alterElement hnext)
      -- later parts add behind the first
      obtain ⟨more, rfl⟩ := hmore _ _ _ h
      exact ⟨d, more, rfl⟩
    · cases h
      exact ⟨d, [], rfl⟩

/-- What is added behind `IF NOT EXISTS` is a column. -/
theorem alterElement_guarded {table : String} {word : List Token}
    (hword : word = [] ∨ ∃ t, isWord "COLUMN" t = true ∧ word = [t]) :
    YieldsAt (alterElement dialect table []) (.keyword .add :: (word ++ (guardTokens ++ rest)))
      fun next _ => ∃ d, next = .yield [.addColumn d] := by
  have hadd : alterAdd dialect table (word ++ (guardTokens ++ rest)) =
      (do return some (.addColumn (← column dialect table)) : Parser (Option AlterAction)) rest := by
    -- the optional `COLUMN` and the guard are read and not kept, so the column follows
    rcases hword with rfl | ⟨t, ht, rfl⟩
    · rfl
    · cases t with
      | ident n =>
        have haccept : accept (isWord "COLUMN") (.ident n :: (guardTokens ++ rest)) =
            .ok (true, guardTokens ++ rest) := by
          rw [accept_eq, if_pos]
          · rfl
          · exact ht
        change (discard (accept (isWord "COLUMN")) >>= fun _ => discard skipIfExists >>= fun _ =>
          column dialect table >>= fun c => pure (some (AlterAction.addColumn c)))
            (.ident n :: (guardTokens ++ rest)) = _
        rw [bind_of_ok (discard_iff.2 ⟨_, haccept⟩),
          bind_of_ok (discard_iff.2 ⟨_, skipIfExists_guard rest⟩)]
      | _ => cases ht
  -- the list of actions starts with that column
  intro next left h
  change (alterAdd dialect table >>= fun action? => (do
    return .yield ([] ++ action?.toList) : Parser (ForInStep (List AlterAction))))
      (word ++ (guardTokens ++ rest)) = _ at h
  obtain ⟨action?, left', haction, h⟩ := bind_eq_ok h
  rw [hadd] at haction
  obtain ⟨d, left'', -, haction⟩ := bind_eq_ok haction
  cases haction
  cases h
  exact ⟨d, rfl⟩

theorem reads_column {opening named word : List Token} {table : String} {s : Statement}
    (hopening : opening ∈ [[], [.keyword .only], [.keyword .ifWord, .keyword .existsWord],
      [.keyword .ifWord, .keyword .existsWord, .keyword .only]])
    (hnamed : DottedName named table) (hif : front named ≠ .keyword .ifWord)
    (honly : front named ≠ .keyword .only)
    (hword : word = [] ∨ ∃ t, isWord "COLUMN" t = true ∧ word = [t])
    (h : alter dialect (.keyword .table ::
      (opening ++ (named ++ .keyword .add :: (word ++ (guardTokens ++ rest))))) = .ok (s, left)) :
    ReadsAs .column s := by
  obtain ⟨parts, hparts⟩ : ∃ parts, parts = .keyword .add :: (word ++ (guardTokens ++ rest)) :=
    ⟨_, rfl⟩
  rw [← hparts] at h
  -- a guard is told by its first word, which the name does not begin with
  have hfront : front (named ++ parts) = front named := by
    cases hnamed <;> rfl
  have hnoIf : skipIfExists (named ++ parts) = .ok (false, named ++ parts) :=
    skipIfExists_none (hfront ▸ hif)
  have hnoOnly : accept (· == .keyword .only) (named ++ parts) = .ok (false, named ++ parts) := by
    rw [accept_eq, hfront, if_neg (by simpa using honly)]
  -- each of the four openings leaves the name
  have hopened : ∃ exists' only left, skipIfExists (opening ++ (named ++ parts)) =
      .ok (exists', left) ∧ accept (· == .keyword .only) left = .ok (only, named ++ parts) := by
    simp only [List.mem_cons, List.not_mem_nil, or_false] at hopening
    rcases hopening with rfl | rfl | rfl | rfl
    · exact ⟨_, _, _, hnoIf, hnoOnly⟩
    · exact ⟨false, true, _, rfl, rfl⟩
    · exact ⟨true, false, named ++ parts, rfl, hnoOnly⟩
    · exact ⟨true, true, _, rfl, rfl⟩
  obtain ⟨exists', only, left', hskip, haccept⟩ := hopened
  change (discard skipIfExists >>= fun _ => discard (accept (· == .keyword .only)) >>= fun _ =>
    qualifiedName "table name" >>= fun table => iterate (alterElement dialect table) [] >>=
      fun actions => pure (Statement.change (.alter table actions)))
        (opening ++ (named ++ parts)) = _ at h
  have hname : qualifiedName "table name" (named ++ parts) = .ok (table, parts) :=
    qualifiedName_dotted hnamed (hparts ▸ Token.noConfusion) _
  rw [bind_of_ok (discard_iff.2 ⟨_, hskip⟩), bind_of_ok (discard_iff.2 ⟨_, haccept⟩),
    bind_of_ok hname] at h
  obtain ⟨actions, left'', hactions, h⟩ := bind_eq_ok h
  cases h
  -- the first action of the list is the guarded column
  obtain ⟨d, more, rfl⟩ := actions_of_first (hparts ▸ alterElement_guarded hword) hactions
  exact ⟨table, d, more, rfl⟩

/-- **Guarded statements.** Each is read as what it asks for, if it is read at all. Only the
definition of a table knows that it was asked for in case the table is not there. -/
theorem Guarded.reads {made : Made} (h : Guarded made ts) {s : Statement}
    (hparse : Statement.parse dialect ts = .ok s) : ReadsAs made s := by
  obtain ⟨⟨_, left⟩, hrun, rfl⟩ := ok_of_map hparse
  change statement dialect ts = _ at hrun
  -- the guard stands where each of the four forms has it
  cases h with
  | @table words rest hwords =>
    rw [statement_create hwords rfl, (create_made _).1] at hrun
    exact reads_table hrun
  | @sequence words rest hwords =>
    rw [statement_create hwords rfl, (create_made _).2.1] at hrun
    exact yields_createSequence _ _ _ hrun
  | @index words unique concurrently rest hwords hunique =>
    rcases hunique with rfl | rfl
    · rw [List.nil_append, statement_create hwords rfl, (create_made _).2.2.1] at hrun
      exact yields_createIndex _ _ _ hrun
    · rw [List.cons_append, List.nil_append, statement_create hwords rfl,
        (create_made _).2.2.2] at hrun
      exact yields_createIndex _ _ _ hrun
  | @column opening named word rest table hopening hnamed hif honly hword =>
    change alter dialect (.keyword .table :: (opening ++
      (named ++ .keyword .add :: (word ++ (guardTokens ++ rest))))) = _ at hrun
    exact reads_column hopening hnamed hif honly hword hrun

end CrudGen.Sql.Parser
