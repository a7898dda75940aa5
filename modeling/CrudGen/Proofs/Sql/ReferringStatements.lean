import CrudGen.Proofs.Sql.References

/-!
# Statements — where references stand

`StatementAt dialect ts τ` says that the parser of a statement, on its way through `ts`, comes to the
name of a table or column that the statement refers to, and that `τ` is what it has before it there:
the elements of a table, what is added to one, and the columns of an index.

Main result:

* `Statement.parse_respelled` — an identifier that is read as a reference may be spelled in any case.
-/

namespace CrudGen.Sql.Parser

open Text (foldAscii sameName)

-- ---------------------------------------------------------------------------
-- Places of references
-- ---------------------------------------------------------------------------

/-- What is added to a table, behind the name of a constraint if there is one. -/
inductive AdditionAt (dialect : Dialect) (table : String) : List Token → List Token → Prop
  | constraint {k : Keyword} {ts τ : List Token} (hk : k ∈ [Keyword.primary, .unique, .foreign])
      (h : ConstraintAt (.keyword k :: ts) τ) : AdditionAt dialect table (.keyword k :: ts) τ
  | index {k : Keyword} {head ts τ : List Token} (hk : k = .key ∨ k = .index)
      (hhead : IndexHead head) (h : ListAt ts τ) :
      AdditionAt dialect table (.keyword k :: (head ++ ts)) τ
  | column {word exists' : Bool} {ts left rest τ : List Token}
      (hbegins : ∀ k ∈ [Keyword.primary, .unique, .foreign, .check, .index, .key],
        front ts ≠ .keyword k)
      (hword : accept (isWord "COLUMN") ts = .ok (word, left))
      (hif : skipIfExists left = .ok (exists', rest)) (h : ColumnAt dialect table rest τ) :
      AdditionAt dialect table ts τ

/-- A part of an `ALTER TABLE`. -/
inductive PartAt (dialect : Dialect) (table : String) : List Token → List Token → Prop
  | add {ts τ : List Token} (hunnamed : front ts ≠ .keyword .constraint)
      (h : AdditionAt dialect table ts τ) : PartAt dialect table (.keyword .add :: ts) τ
  | addNamed {t : Token} {ts τ : List Token} (ht : (nameOf? t).isSome = true)
      (h : AdditionAt dialect table ts τ) :
      PartAt dialect table (.keyword .add :: .keyword .constraint :: t :: ts) τ
  | setDefault {word : Bool} {ts rest : List Token} {t set : Token}
      (hword : accept (isWord "COLUMN") ts = .ok (word, t :: set :: .keyword .default :: rest))
      (hset : isWord "SET" set = true) :
      PartAt dialect table (.keyword .alter :: ts) (t :: set :: .keyword .default :: rest)

/-- What follows `ALTER TABLE`. The table counts unless the statement adds a column with an
enumeration of its own, which takes its name from the table as it is spelled here. -/
inductive ChangeAt (dialect : Dialect) : List Token → List Token → Prop
  | table {word only : Bool} {ts left rest τ : List Token}
      (hif : skipIfExists ts = .ok (word, left))
      (honly : accept (· == .keyword .only) left = .ok (only, rest)) (h : NameAt rest τ)
      (henums : ∀ table actions,
        Statement.parse dialect (.keyword .alter :: .keyword .table :: ts) =
          .ok (.change (.alter table actions)) →
        ∀ d, .addColumn d ∈ actions → d.inlineEnum = none) :
      ChangeAt dialect ts τ
  | part {word only : Bool} {table : String} {actions : List AlterAction}
      {ts left left' parts rest τ : List Token} (hif : skipIfExists ts = .ok (word, left))
      (honly : accept (· == .keyword .only) left = .ok (only, left'))
      (htable : qualifiedName "table name" left' = .ok (table, parts))
      (hparts : Comes (alterElement dialect table) [] parts actions rest)
      (h : PartAt dialect table rest τ) : ChangeAt dialect ts τ

/-- What follows `CREATE INDEX`. -/
inductive CreateIndexAt : List Token → List Token → Prop
  | table {indexName : Option String} {ts rest τ : List Token}
      (htarget : indexTarget ts = .ok (indexName, rest)) (h : NameAt rest τ) : CreateIndexAt ts τ
  | column {indexName : Option String} {table : String} {d : IndexDraft} {n : String}
      {ts left left' columns rest : List Token} (htarget : indexTarget ts = .ok (indexName, left))
      (htable : qualifiedName "table name" left = .ok (table, left'))
      (hopening : indexOpening left' = .ok ((), columns))
      (hcolumns : Comes indexElement {} columns d (.ident n :: rest)) :
      CreateIndexAt ts (.ident n :: rest)

/-- A statement: the parser comes to a name of a table or column that the statement refers to, and
has `τ` before it. -/
inductive StatementAt (dialect : Dialect) : List Token → List Token → Prop
  | createTable {ts rest τ : List Token} (hmodifiers : modifiers ts = .ok ((), .keyword .table :: rest))
      (h : TableAt dialect rest τ) : StatementAt dialect (.keyword .create :: ts) τ
  | createIndex {ts rest τ : List Token} (hmodifiers : modifiers ts = .ok ((), .keyword .index :: rest))
      (h : CreateIndexAt rest τ) : StatementAt dialect (.keyword .create :: ts) τ
  | createUnique {ts rest τ : List Token}
      (hmodifiers : modifiers ts = .ok ((), .keyword .unique :: .keyword .index :: rest))
      (h : CreateIndexAt rest τ) : StatementAt dialect (.keyword .create :: ts) τ
  | alter {ts τ : List Token} (h : ChangeAt dialect ts τ) :
      StatementAt dialect (.keyword .alter :: .keyword .table :: ts) τ

section

variable {α γ : Type} {n n' : String} {rest : List Token} (hname : sameName n n' = true)
include hname

-- ---------------------------------------------------------------------------
-- Changes
-- ---------------------------------------------------------------------------

/-- What is added to a table looks the same when a name that it refers to is spelled differently. -/
theorem sameAt_addition {dialect : Dialect} {table : String} {ts : List Token}
    (h : AdditionAt dialect table ts (.ident n :: rest)) (constraint : Option String) :
    SameAt n n' rest (Option.map AlterAction.folded) (addition dialect table constraint) ts := by
  have hedge := plainEdge_of_sameName hname rest
  -- constraints folded alike become actions folded alike
  have haction {c c' : TableConstraint} (hc : c.folded = c'.folded) :
      (TableConstraint.action? c).map AlterAction.folded =
        (TableConstraint.action? c').map AlterAction.folded := by
    have hview (c : TableConstraint) :
        (TableConstraint.action? c).map AlterAction.folded = TableConstraint.action? c.folded := by
      cases c <;> rfl
    rw [hview, hview, hc]
  cases h with
  | @constraint k ts _ hk h =>
    have hread : SameAt n n' rest (Option.map AlterAction.folded) (do
        return TableConstraint.action? (← tableConstraint constraint)) (.keyword k :: ts) :=
      .map (sameAt_tableConstraint hname h constraint) fun _ _ hc => haction hc
    simp only [List.mem_cons, List.not_mem_nil, or_false] at hk
    obtain rfl | rfl | rfl := hk
    · exact .look Token.noConfusion hread
    · exact .look Token.noConfusion hread
    · exact .look Token.noConfusion hread
  | @index k head ts _ hk hhead h =>
    have hread (k : Keyword) : SameAt n n' rest (Option.map AlterAction.folded) (do
        advance
        return some (.addIndex (← indexBody))) (.keyword k :: (head ++ ts)) :=
      .after rfl (consumes_advance hedge.toEdge).toLocal
        (.map (g := fun i => some (AlterAction.addIndex i)) (sameAt_indexBody hname hhead h)
          fun _ _ hi => congrArg (fun i => some (AlterAction.addIndex i)) hi)
    obtain rfl | rfl := hk
    · exact .look Token.noConfusion (hread _)
    · exact .look Token.noConfusion (hread _)
  | @column word if? ts left left' _ hbegins hword hif h =>
    have hread : SameAt n n' rest (Option.map AlterAction.folded) (do
        discard <| accept (isWord "COLUMN")
        discard skipIfExists
        return some (.addColumn (← column dialect table))) ts := by
      have hlocal : Local (.ident n :: rest) (.ident n' :: rest) True (accept (isWord "COLUMN")) :=
        local_accept_word hedge.toEdge (by decide +kernel)
      exact .after (discard_iff.2 ⟨_, hword⟩) (.discard hlocal)
        (.after (discard_iff.2 ⟨_, hif⟩) (.discard (local_skipIfExists hname))
          (.map (g := fun c => some (AlterAction.addColumn c)) (sameAt_column hname h)
            fun _ _ hc => congrArg (fun c => some (AlterAction.addColumn c)) hc))
    -- the column takes three tokens at least, so what is looked at stands before the name
    have hlength : rest.length + 3 ≤ ts.length := by
      have hleft := ((local_accept_word (Q := True) hedge.toEdge (by decide +kernel)).suffix
        hword).length_le
      have hskip : Local (.ident n :: rest) (.ident n' :: rest) True skipIfExists :=
        local_skipIfExists hname
      have hleft' := (hskip.suffix hif).length_le
      have hcolumn := h.length hname
      omega
    refine .look_of_ne (fun hts => ?_) ?_
    · rw [hts, List.length_cons] at hlength
      omega
    -- the first token begins none of the other additions
    · cases hfront : front ts with
      | keyword k =>
        have hother := hbegins k
        cases k <;> first | exact hread | exact absurd hfront (hother (by decide))
      | _ => exact hread

theorem sameAt_alterElement {dialect : Dialect} {table : String} {ts : List Token}
    (h : PartAt dialect table ts (.ident n :: rest)) (actions : List AlterAction) :
    SameAt n n' rest (stepView (List.map AlterAction.folded)) (alterElement dialect table actions)
      ts := by
  have hedge := plainEdge_of_sameName hname rest
  have happend {action action' : Option AlterAction}
      (haction : action.map AlterAction.folded = action'.map AlterAction.folded) :
      stepView (List.map AlterAction.folded) (.yield (actions ++ action.toList)) =
        stepView (List.map AlterAction.folded) (.yield (actions ++ action'.toList)) := by
    refine congrArg ForInStep.yield ?_
    rw [List.map_append, List.map_append, ← Option.toList_map, haction, Option.toList_map]
  cases h with
  | @add ts _ hunnamed h =>
    have hnone : accept (· == .keyword .constraint) ts = .ok (false, ts) := by
      have hfront : (front ts == .keyword .constraint) = false := by simpa using hunnamed
      change (if front ts == .keyword .constraint then _ else _ : Parser Bool) ts = _
      rw [hfront]
      rfl
    have hread : SameAt n n' rest (Option.map AlterAction.folded) (alterAdd dialect table) ts :=
      .after hnone (local_accept_keyword hedge fun t ht => ⟨.constraint, beq_iff_eq.1 ht⟩)
        (sameAt_addition hname h none)
    exact .look Token.noConfusion (.after rfl (consumes_advance hedge.toEdge).toLocal
      (.bind hread fun _ _ haction => .pure (happend haction)))
  | @addNamed t ts _ ht h =>
    obtain ⟨m, hm⟩ := Option.isSome_iff_exists.1 ht
    have hsome : (some <$> name "constraint name" : Parser (Option String)) (t :: ts) =
        .ok (some m, ts) := by
      change Except.bind (name "constraint name" (t :: ts)) _ = _
      rw [name_eq_ok hm]
      rfl
    have hread : SameAt n n' rest (Option.map AlterAction.folded) (alterAdd dialect table)
        (.keyword .constraint :: t :: ts) :=
      .after (p := accept (· == .keyword .constraint)) rfl
        (local_accept_keyword hedge fun t ht => ⟨.constraint, beq_iff_eq.1 ht⟩)
        (.after hsome (.map (consumes_name hedge.toEdge _).toLocal _)
          (sameAt_addition hname h (some m)))
    exact .look Token.noConfusion (.after rfl (consumes_advance hedge.toEdge).toLocal
      (.bind hread fun _ _ haction => .pure (happend haction)))
  | @setDefault word ts more _ set hword hset =>
    -- the target of the default stands right behind the words before it
    have htarget : SameAt n n' (set :: .keyword .default :: more) (Option.map AlterAction.folded)
        (do
          let target ← name "column name"
          if isWord "SET" (← current) && (← peek 1) == .keyword .default then
            advance
            advance
            return some (.setDefault target (← defaultExpression))
          skipElement
          return none : Parser (Option AlterAction))
        (.ident n :: set :: .keyword .default :: more) := by
      refine ⟨[], rfl, ?_⟩
      change LooksAlike _
        ((if isWord "SET" set && true then _ else _ : Parser (Option AlterAction)) _)
        ((if isWord "SET" set && true then _ else _ : Parser (Option AlterAction)) _)
      rw [hset]
      have hview (e : String) : (some (AlterAction.setDefault n e)).map AlterAction.folded =
          (some (AlterAction.setDefault n' e)).map AlterAction.folded :=
        congrArg (fun target => some (AlterAction.setDefault target e)) (foldAscii_eq hname)
      exact Alike.next (fun e => .pure (hview e)) more
    have hread : SameAt n n' (set :: .keyword .default :: more) (Option.map AlterAction.folded)
        alterColumn ts :=
      .after (discard_iff.2 ⟨_, hword⟩)
        (.discard (local_accept_word hedge.toEdge (by decide +kernel))) htarget
    exact .look Token.noConfusion (.after rfl (consumes_advance hedge.toEdge).toLocal
      (.bind hread fun _ _ haction => .pure (happend haction)))

-- ---------------------------------------------------------------------------
-- Statements
-- ---------------------------------------------------------------------------

/-- The columns of an index look the same when the next of them is spelled differently. -/
theorem sameAt_indexElement {d : IndexDraft} :
    SameAt n n' rest (stepView IndexDraft.folded) (indexElement d) (.ident n :: rest) := by
  have hcolumn (called : Bool) :
      stepView IndexDraft.folded (.yield {
        columns := d.columns ++ [n]
        expression := d.expression || called }) =
      stepView IndexDraft.folded (.yield {
        columns := d.columns ++ [n']
        expression := d.expression || called }) := by
    simp [stepView, IndexDraft.folded, foldNames, foldAscii_eq hname]
  have hread : Alike (stepView IndexDraft.folded) (indexColumn d n) (indexColumn d n') :=
    .next fun called => .next fun _ => .pure (hcolumn called)
  exact ⟨[], rfl, hread rest⟩

omit hname in
/-- What is decided by all the tokens that are left. -/
theorem local_get {β : Type} {τ τ' : List Token} {Q : Prop} {f : List Token → Parser β}
    (hf : ∀ ts, Local τ τ' Q (f ts)) (hsame : ∀ before, f (before ++ τ') = f (before ++ τ)) :
    Local τ τ' Q (get >>= f) where
  suffix := fun ts _ _ hrun => (hf ts).suffix hrun
  moves := by
    intro before b left hQ hrun
    change f (before ++ τ') (before ++ τ') = _
    rw [hsame]
    exact (hf (before ++ τ)).moves before hQ hrun

/-- Options of columns are dropped up to the name at most. -/
theorem local_skipIndexOptions :
    Local (.ident n :: rest) (.ident n' :: rest) True skipIndexOptions := by
  have hedge := (plainEdge_of_sameName hname rest).toEdge
  refine .iterate (fun _ => ?_) ()
  refine .look hedge.ne_nil (fun t => ?_) (.inr rfl)
  split
  · exact .pure _
  · exact .pure _
  · exact .pure _
  · exact .bind (consumes_skipParenthesized hedge).toLocal fun _ => .pure _
  · exact (consumes_token hedge _).toLocal

/-- A group behind a column does not take the name. -/
theorem local_indexCall : Local (.ident n :: rest) (.ident n' :: rest) True indexCall := by
  have hedge := (plainEdge_of_sameName hname rest).toEdge
  refine local_get (fun ts => ?_) fun before => ?_
  · split
    · exact .bind (consumes_skipParenthesized hedge).toLocal fun _ => .pure _
    · exact .bind (consumes_skipParenthesized hedge).toLocal fun _ => .pure _
    · exact .pure _
  · match before with
    | [] => rfl
    | [t] => cases t <;> rfl
    | t :: u :: before =>
      cases t with
      | lparen => cases u <;> rfl
      | _ => rfl

/-- Columns of an index before the name are read without seeing it. -/
theorem local_indexElement (d : IndexDraft) :
    Local (.ident n :: rest) (.ident n' :: rest) True (indexElement d) := by
  have hedge := (plainEdge_of_sameName hname rest).toEdge
  refine .look hedge.ne_nil (fun t => ?_) (.inr rfl)
  split
  · exact (consumes_token hedge _).toLocal
  · exact .throw _
  · exact (consumes_token hedge _).toLocal
  · exact .bind (consumes_skipParenthesized hedge).toLocal fun _ => .pure _
  · exact .bind (consumes_name hedge _).toLocal fun column => .bind (local_indexCall hname)
      fun called => .bind (local_skipIndexOptions hname) fun _ => .pure _

/-- The name of an index is read without seeing what it is on. -/
theorem local_indexTarget : Local (.ident n :: rest) (.ident n' :: rest) True indexTarget := by
  have hedge := plainEdge_of_sameName hname rest
  have hon (indexName : Option String) : Local (.ident n :: rest) (.ident n' :: rest) True (do
      expect (.keyword .on) "ON"
      discard <| accept (· == .keyword .only)
      return indexName : Parser (Option String)) :=
    .bind (consumes_expect hedge.toEdge _ _).toLocal fun _ => .bind (.discard
      (local_accept_keyword hedge fun t ht => ⟨.only, beq_iff_eq.1 ht⟩)) fun _ => .pure _
  refine .bind (.discard (local_accept_word hedge.toEdge (by decide +kernel))) fun _ =>
    .bind (.discard (local_skipIfExists hname)) fun _ =>
      .look hedge.ne_nil (fun t => .ite (fun _ => .bind (.pure _) fun _ => hon _) fun _ =>
        .bind (.map (consumes_qualifiedName hedge.toEdge _).toLocal _) fun _ => hon _) (.inr rfl)

/-- The word before the columns of an index does not take the name. -/
theorem local_indexOpening : Local (.ident n :: rest) (.ident n' :: rest) True indexOpening := by
  have hedge := (plainEdge_of_sameName hname rest).toEdge
  have hopen := (consumes_expect (Q := True) hedge .lparen "index column list").toLocal
  exact .bind (local_accept_word hedge (by decide +kernel)) fun _ => .ite
    (fun _ => .bind (.discard (consumes_name hedge _).toLocal) fun _ => hopen) fun _ => hopen

/-- Modifiers end before what is created. -/
theorem local_modifiers : Local (.ident n :: rest) (.ident n' :: rest) True modifiers := by
  have hedge := (plainEdge_of_sameName hname rest).toEdge
  exact .iterate (fun _ => .bind (local_accept_words hedge (by decide +kernel)) fun _ => .ite
    (fun _ => .pure _) fun _ => .pure _) ()

/-- An index looks the same when its table or one of its columns is spelled differently. -/
theorem sameAt_createIndex {ts : List Token} (h : CreateIndexAt ts (.ident n :: rest))
    (unique : Bool) : SameAt n n' rest Statement.folded (createIndex unique) ts := by
  have hedge := (plainEdge_of_sameName hname rest).toEdge
  have hmade (indexName : Option String) {table table' : String} {d d' : IndexDraft}
      (htable : foldAscii table = foldAscii table') (hd : d.folded = d'.folded) :
      Alike Statement.folded (indexOn unique indexName table d)
        (indexOn unique indexName table' d') := by
    obtain ⟨hcolumns, hexpression⟩ := IndexDraft.mk.inj hd
    have hempty : d.columns.isEmpty = d'.columns.isEmpty := by
      have hsame := congrArg List.isEmpty hcolumns
      rwa [foldNames, foldNames, List.isEmpty_map, List.isEmpty_map] at hsame
    -- an expression among the columns makes the index nothing on either side
    have hstatement : Statement.folded (.change (.index table
          (if d'.expression then none
            else some { name := indexName, columns := d.columns, unique }))) =
        Statement.folded (.change (.index table'
          (if d'.expression then none
            else some { name := indexName, columns := d'.columns, unique }))) := by
      split
      · simp only [Statement.folded, TableChange.folded, htable]
      · simp only [Statement.folded, TableChange.folded, htable, Option.map_some, foldIndex]
        rw [hcolumns]
    rw [indexOn, indexOn, hempty, hexpression]
    exact .ite (fun _ => .next fun _ => .pure hstatement) fun _ => .pure hstatement
  rw [createIndex]
  cases h with
  -- the name is that of the table, or of a column behind it
  | table htarget h =>
    exact .after htarget (local_indexTarget hname) (.bind (sameAt_qualifiedName hname _ h)
      fun table table' htable => .next fun _ => .next fun d => hmade _ htable rfl)
  | column htarget htable hopening hcolumns =>
    exact .after htarget (local_indexTarget hname)
      (.after htable (consumes_qualifiedName hedge _).toLocal
        (.after hopening (local_indexOpening hname)
          (.bind (.iterate hcolumns (local_indexElement hname) (sameAt_indexElement hname)
            fun _ _ hd => alike_indexElement_folded hd) fun _ _ hd => hmade _ rfl hd)))

/-- What a statement says looks the same after the identifier is replaced, or both fail. -/
def SameStatement (n n' : String) (rest : List Token) (p : Parser Statement) (ts : List Token) :
    Prop :=
  ∃ before, ts = before ++ .ident n :: rest ∧
    (p ts).toOption.map (·.1.folded) =
      (p (before ++ .ident n' :: rest)).toOption.map (·.1.folded)

namespace SameStatement

variable {p : Parser α} {f : α → Parser Statement} {ts left : List Token} {a : α}
omit hname

/-- What looks the same in lower case is the same statement but for its spelling. -/
theorem of_sameAt {p : Parser Statement} (h : SameAt n n' rest Statement.folded p ts) :
    SameStatement n n' rest p ts := by
  obtain ⟨before, hts, hsame⟩ := h
  refine ⟨before, hts, ?_⟩
  generalize p ts = x at hsame
  generalize p (before ++ .ident n' :: rest) = y at hsame
  cases hsame with
  | error e => rfl
  | ok hview => exact congrArg some hview

/-- The name is read by the first of two parsers, and the second does not tell the spellings apart.
-/
theorem bind {view : α → γ} (h : SameAt n n' rest view p ts)
    (hf : ∀ a b, view a = view b → ∀ ts,
      (f a ts).toOption.map (·.1.folded) = (f b ts).toOption.map (·.1.folded)) :
    SameStatement n n' rest (p >>= f) ts := by
  obtain ⟨before, hts, hsame⟩ := h
  refine ⟨before, hts, ?_⟩
  change (Except.bind (p ts) fun r => f r.1 r.2).toOption.map _ =
    (Except.bind (p (before ++ .ident n' :: rest)) fun r => f r.1 r.2).toOption.map _
  generalize p ts = x at hsame
  generalize p (before ++ .ident n' :: rest) = y at hsame
  cases hsame with
  | error e => rfl
  | ok hview => exact hf _ _ hview _

/-- The name is read by the second of two parsers. -/
theorem after (hp : p ts = .ok (a, left))
    (hlocal : Local (.ident n :: rest) (.ident n' :: rest) True p)
    (h : SameStatement n n' rest (f a) left) : SameStatement n n' rest (p >>= f) ts := by
  obtain ⟨mid, rfl, hsame⟩ := h
  obtain ⟨before, rfl⟩ := hlocal.suffix hp
  refine ⟨before ++ mid, (List.append_assoc _ _ _).symm, ?_⟩
  rw [← List.append_assoc] at hp
  have hmoved := hlocal.moves (before ++ mid) (fun _ => trivial) hp
  change (Except.bind (p (before ++ (mid ++ .ident n :: rest))) fun r => f r.1 r.2).toOption.map _ =
    (Except.bind (p (before ++ mid ++ .ident n' :: rest)) fun r => f r.1 r.2).toOption.map _
  rw [hmoved, ← List.append_assoc, hp]
  exact hsame

/-- A token that is not the name decides what is read. -/
theorem look {f : Token → Parser Statement} (hne : front ts ≠ .ident n)
    (h : SameStatement n n' rest (f (front ts)) ts) :
    SameStatement n n' rest (current >>= f) ts := by
  obtain ⟨before, rfl, hsame⟩ := h
  refine ⟨before, rfl, ?_⟩
  cases before with
  | nil => exact absurd rfl hne
  | cons t before => exact hsame

end SameStatement

/-- A table says the same when a name that it refers to is spelled differently. -/
theorem sameStatement_createTable {dialect : Dialect} {ts : List Token}
    (h : TableAt dialect ts (.ident n :: rest)) :
    SameStatement n n' rest (createTable dialect) ts := by
  have hedge := plainEdge_of_sameName hname rest
  cases h with
  | @element ifNotExists table d _ left elements more _ hif htable helements h =>
    -- the bracket is looked for before the name, and the rounds behind it
    have hopen : Local (.ident n :: rest) (.ident n' :: rest) True (accept (· == .lparen)) :=
      local_accept hedge.toEdge fun _ => rfl
    have hdraft : SameAt n n' rest TableDraft.folded (iterate (tableElement dialect table) {})
        elements :=
      .iterate helements (local_tableElement hedge dialect table) (sameAt_tableElement hname h d)
        fun _ _ hd => alike_tableElement_folded dialect table hd
    refine .after hif (local_skipIfExists hname)
      (.after htable (consumes_qualifiedName hedge.toEdge _).toLocal
        (.after (p := accept (· == .lparen)) rfl hopen (.bind hdraft fun d d' hd ts => ?_)))
    have hdefinition := TableDraft.definition_folded hd table ifNotExists
    change Option.map _ (Except.toOption ((liftM (d.definition table ifNotExists) >>= fun t =>
        pure (Statement.createTable t) : Parser Statement) ts)) =
      Option.map _ (Except.toOption ((liftM (d'.definition table ifNotExists) >>= fun t =>
        pure (Statement.createTable t) : Parser Statement) ts))
    generalize d.definition table ifNotExists = x at hdefinition
    generalize d'.definition table ifNotExists = y at hdefinition
    cases x with
    | error e =>
      cases y with
      | error e' => rfl
      | ok t' => cases hdefinition
    | ok t =>
      cases y with
      | error e' => cases hdefinition
      | ok t' => exact congrArg (some ∘ Statement.createTable) (Option.some.inj hdefinition)

omit hname in
/-- Actions without an enumeration of their own are the same in every spelling of their table. -/
theorem eq_of_unnamed {actions actions' : List AlterAction}
    (h : actions.map (·.unnamed?) = actions'.map (·.unnamed?))
    (henums : ∀ d, .addColumn d ∈ actions → d.inlineEnum = none) : actions = actions' := by
  -- an action is told by its view unless it adds a column with an enumeration
  have hself {a : AlterAction} (ha : ∀ d, a = .addColumn d → d.inlineEnum = none) :
      a.unnamed? = some a := by
    cases a with
    | addColumn d =>
      rw [AlterAction.unnamed?, ha d rfl]
      rfl
    | _ => rfl
  have heq {a a' : AlterAction} (ha : a'.unnamed? = some a) : a = a' := by
    cases a' with
    | addColumn d =>
      rw [AlterAction.unnamed?] at ha
      split at ha
      · cases ha
      · exact (Option.some.inj ha).symm
    | _ => exact (Option.some.inj ha).symm
  induction actions generalizing actions' with
  | nil => exact (List.map_eq_nil_iff.1 h.symm).symm
  | cons a more ih =>
    obtain ⟨a', more', rfl, hfirst, hmore⟩ := List.map_eq_cons_iff.1 h.symm
    have ha : a.unnamed? = some a := hself fun d hd => henums d (hd ▸ List.mem_cons_self)
    rw [heq (hfirst.trans ha), ih hmore.symm fun d hd => henums d (List.mem_cons_of_mem _ hd)]

theorem sameStatement_alter {dialect : Dialect} {ts : List Token}
    (h : ChangeAt dialect ts (.ident n :: rest)) :
    SameStatement n n' rest (alter dialect) (.keyword .table :: ts) := by
  have hedge := plainEdge_of_sameName hname rest
  have htable : Local (.ident n :: rest) (.ident n' :: rest) True (accept (· == .keyword .table)) :=
    local_accept_keyword hedge fun t ht => ⟨.table, beq_iff_eq.1 ht⟩
  have honly : Local (.ident n :: rest) (.ident n' :: rest) True
      (discard (accept (· == .keyword .only))) :=
    .discard (local_accept_keyword hedge fun t ht => ⟨.only, beq_iff_eq.1 ht⟩)
  refine .after (p := accept (· == .keyword .table)) rfl htable ?_
  cases h with
  | @table word only _ left left' _ hif hskip h henums =>
    refine .after (discard_iff.2 ⟨_, hif⟩) (.discard (local_skipIfExists hname))
      (.after (discard_iff.2 ⟨_, hskip⟩) honly ?_)
    have hrun : statement dialect (.keyword .alter :: .keyword .table :: ts) =
        (qualifiedName "table name" >>= alterParts dialect) left' := by
      change Except.bind (discard skipIfExists ts) _ = _
      rw [discard_iff.2 ⟨_, hif⟩]
      change Except.bind (discard (accept (· == .keyword .only)) left) _ = _
      rw [discard_iff.2 ⟨_, hskip⟩]
      rfl
    obtain ⟨before, hts, hsame⟩ := sameAt_qualifiedName hname "table name" h
    refine ⟨before, hts, ?_⟩
    change (Except.bind (qualifiedName "table name" left') fun r =>
        alterParts dialect r.1 r.2).toOption.map _ =
      (Except.bind (qualifiedName "table name" (before ++ .ident n' :: rest)) fun r =>
        alterParts dialect r.1 r.2).toOption.map _
    change _ = Except.bind (qualifiedName "table name" left') fun r =>
      alterParts dialect r.1 r.2 at hrun
    generalize qualifiedName "table name" left' = x at hsame hrun
    generalize qualifiedName "table name" (before ++ .ident n' :: rest) = y at hsame
    cases hsame with
    | error e => rfl
    | @ok table table' more htable =>
      -- the parts are read alike, and no enumeration takes its name from the table
      have halike : Alike (List.map AlterAction.unnamed?)
          (iterate (alterElement dialect table) []) (iterate (alterElement dialect table') []) :=
        .iterate rfl fun _ _ => alike_alterElement_unnamed dialect table table'
      have hparts (table : String) : alterParts dialect table more =
          (iterate (alterElement dialect table) [] more).map fun r =>
            (.change (.alter table r.1), r.2) := by
        change Except.bind (iterate (alterElement dialect table) [] more) _ = _
        cases iterate (alterElement dialect table) [] more <;> rfl
      have hmore := halike more
      change _ = alterParts dialect table more at hrun
      change (alterParts dialect table more).toOption.map _ =
        (alterParts dialect table' more).toOption.map _
      rw [hparts] at hrun
      rw [hparts, hparts]
      generalize iterate (alterElement dialect table) [] more = x at hmore hrun
      generalize iterate (alterElement dialect table') [] more = y at hmore
      cases hmore with
      | error e => rfl
      | @ok actions actions' last hactions =>
        have hparse : Statement.parse dialect (.keyword .alter :: .keyword .table :: ts) =
            .ok (.change (.alter table actions)) :=
          congrArg (Except.map Prod.fst) hrun
        rw [eq_of_unnamed hactions (henums table actions hparse)]
        exact congrArg (fun table => some (Statement.change (.alter table _))) htable
  | part hif hskip htable hparts h =>
    refine .after (discard_iff.2 ⟨_, hif⟩) (.discard (local_skipIfExists hname))
      (.after (discard_iff.2 ⟨_, hskip⟩) honly
        (.after htable (consumes_qualifiedName hedge.toEdge _).toLocal (.of_sameAt ?_)))
    exact .bind (.iterate hparts (local_alterElement hname dialect _)
      (sameAt_alterElement hname h _) fun _ _ hactions => alike_alterElement_folded dialect _ hactions)
      fun _ _ hactions => .pure (congrArg (fun actions => Statement.change (.alter _ actions)) hactions)

theorem sameStatement_statement {dialect : Dialect} {ts : List Token}
    (h : StatementAt dialect ts (.ident n :: rest)) :
    SameStatement n n' rest (statement dialect) ts := by
  have hadvance : Local (.ident n :: rest) (.ident n' :: rest) True advance :=
    (consumes_advance (plainEdge_of_sameName hname rest).toEdge).toLocal
  -- the words in front of the name are read first, and they tell the statement
  cases h with
  | createTable hmodifiers h =>
    exact .look Token.noConfusion (.after rfl hadvance (.after hmodifiers (local_modifiers hname)
      (.look Token.noConfusion (.after rfl hadvance (sameStatement_createTable hname h)))))
  | createIndex hmodifiers h =>
    exact .look Token.noConfusion (.after rfl hadvance (.after hmodifiers (local_modifiers hname)
      (.look Token.noConfusion (.after rfl hadvance
        (.of_sameAt (sameAt_createIndex hname h false))))))
  | createUnique hmodifiers h =>
    have hexpect := (consumes_expect (Q := True) (plainEdge_of_sameName hname rest).toEdge
      (.keyword .index) "INDEX").toLocal
    exact .look Token.noConfusion (.after rfl hadvance (.after hmodifiers (local_modifiers hname)
      (.look Token.noConfusion (.after rfl hadvance (.after rfl hexpect
        (.of_sameAt (sameAt_createIndex hname h true)))))))
  | alter h =>
    exact .look Token.noConfusion (.after rfl hadvance (sameStatement_alter hname h))

end

end CrudGen.Sql.Parser

namespace CrudGen.Sql

open Text (foldAscii sameName)

/-- **Statements.** An identifier that a statement is referred by may be spelled in any case: the
statement says the same, but for the spelling of what it refers to, or fails as before. -/
theorem Statement.parse_respelled {dialect : Dialect} {ts rest : List Token} {n n' : String}
    (h : Parser.StatementAt dialect ts (.ident n :: rest)) (hname : sameName n n' = true) :
    ∃ before, ts = before ++ .ident n :: rest ∧
      (Statement.parse dialect ts).toOption.map folded =
        (Statement.parse dialect (before ++ .ident n' :: rest)).toOption.map folded := by
  obtain ⟨before, hts, hsame⟩ := Parser.sameStatement_statement hname h
  have hparse (ts : List Token) : (Statement.parse dialect ts).toOption.map folded =
      (Parser.statement dialect ts).toOption.map (·.1.folded) := by
    change (Except.map _ (Parser.statement dialect ts)).toOption.map _ = _
    cases Parser.statement dialect ts <;> rfl
  exact ⟨before, hts, (hparse ts).trans (hsame.trans (hparse _).symm)⟩

end CrudGen.Sql
