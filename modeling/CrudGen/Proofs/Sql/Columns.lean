import CrudGen.Proofs.Sql.Definition
import CrudGen.Proofs.Sql.References
import CrudGen.Proofs.Sql.Written

/-!
# Statements — where columns are declared

`Declares dialect ts table n w` says that the parser of a statement, on its way through `ts`, comes
to a column `n` of `table`, and reads `w` as the type that is written there.

Main results:

* `writtenType_labels` — a list of labels is read as the type that it is.
* `declares_of_createTable`, `declares_of_alter` — the columns of a definition and the columns that
  a change adds are declared in their statements, and have the types that are written there.
-/

namespace CrudGen.Sql.Parser

variable {dialect : Dialect} {table : String} {ts rest : List Token}

-- ---------------------------------------------------------------------------
-- Types with labels
-- ---------------------------------------------------------------------------

/-- Whether a type is written as an enumeration. -/
def WrittenType.IsEnumeration (w : WrittenType) : Prop :=
  (w.words = ["enum"] ∨ w.words = ["set"]) ∧ w.labels ≠ []

namespace WrittenType.IsEnumeration

variable {w : WrittenType}

/-- An enumeration is named for its table and column. -/
theorem inlineEnum? (h : w.IsEnumeration) (table column : String) :
    w.inlineEnum? table column = some { name := table ++ "_" ++ column, labels := w.labels } := by
  obtain ⟨hwords, hlabels⟩ := h
  have hbase : (" ".intercalate w.words == "enum" || " ".intercalate w.words == "set") = true := by
    obtain hwords | hwords := hwords <;> rw [hwords] <;> decide +kernel
  simp [WrittenType.inlineEnum?, hbase, hlabels]

/-- The type is the enumeration, in as many arrays as it has brackets. -/
theorem dataType (h : w.IsEnumeration) (dialect : Dialect) (table column : String) :
    (w.meaning dialect table column).dataType =
      arrayOf w.arrays (.enum (table ++ "_" ++ column)) := by
  simp [meaning, h.inlineEnum?]

end WrittenType.IsEnumeration

/-- Labels as they stand between the parentheses of a type. -/
def labelTokens (labels : List String) : List Token :=
  (labels.map Token.str).intersperse .comma

/-- The labels of a type are read from its parentheses. -/
theorem typeArguments_labels (labels : List String) (rest : List Token) :
    typeArguments (labelTokens labels ++ .rparen :: rest) =
      .ok ({ labels, shown := labels.map fun label => (Token.str label).text }, rest) := by
  induction labels with
  | nil => rfl
  | cons label labels ih =>
    cases labels with
    | nil => rfl
    | cons next labels =>
      change (typeArguments (labelTokens (next :: labels) ++ .rparen :: rest) >>= _) = _
      rw [ih]
      rfl

/-- Every array suffix adds a layer. -/
theorem comes_brackets (w : WrittenType) (k : Nat) :
    Comes typeSuffix w (List.replicate k Token.brackets ++ rest)
      { w with
        text := w.text ++ String.join (List.replicate k "[]")
        arrays := w.arrays + k } rest := by
  induction k generalizing w with
  | zero =>
    simp only [List.replicate_zero, String.join_nil, String.append_empty]
    exact .refl _ _
  | succ k ih =>
    have hmore := ih { w with text := w.text ++ "[]", arrays := w.arrays + 1 }
    have harrays : w.arrays + (k + 1) = w.arrays + 1 + k := by omega
    rw [harrays, List.replicate_succ (a := "[]"), String.join_cons, ← String.append_assoc]
    exact .round rfl (Nat.lt_succ_self _) hmore

/-- A word, labels and array suffixes as a written type. -/
def labelledType (word : String) (labels : List String) (k : Nat) : WrittenType where
  words := [Text.toLower word]
  text := word ++ "(" ++ ",".intercalate (labels.map fun label => (Token.str label).text) ++ ")" ++
    String.join (List.replicate k "[]")
  labels := labels
  arrays := k

/-- **Types.** A word, labels and array suffixes are read as what they are, unless more of the type
follows. -/
theorem writtenType_labels (column word : String) (labels : List String) (k : Nat)
    (hparen : front rest ≠ Token.lparen) (hlayer : front rest ≠ Token.brackets)
    (hword : goesOnWithType (front rest) = false) :
    writtenType column (Token.ident word :: Token.lparen :: (labelTokens labels ++ Token.rparen ::
        (List.replicate k Token.brackets ++ rest))) =
      .ok (labelledType word labels k, rest) := by
  let suffixes := List.replicate k Token.brackets ++ rest
  let written : WrittenType := { words := [Text.toLower word], text := word }
  let labelled := { written with
    text := word ++ "(" ++ ",".intercalate (labels.map fun label => (Token.str label).text) ++ ")"
    labels }
  have hopen : typeSuffix written (Token.lparen :: (labelTokens labels ++ Token.rparen :: suffixes)) =
      .ok (.yield labelled, suffixes) := by
    change Except.bind (typeArguments (labelTokens labels ++ Token.rparen :: suffixes)) _ = _
    rw [typeArguments_labels]
    rfl
  have hlt : suffixes.length < (labelTokens labels ++ Token.rparen :: suffixes).length + 1 := by
    simp only [List.length_append, List.length_cons]
    omega
  -- no dot goes on with the name of the type
  have hdots (step : String → Parser (ForInStep String)) (more : List Token)
      (hstep : step word more = .ok (.done word, more)) :
      iterate step word more = .ok (word, more) := by
    rw [iterate, hstep]
  change Except.bind (iterate _ word (Token.lparen :: (labelTokens labels ++ Token.rparen :: suffixes)))
    (fun r => iterate typeSuffix { words := [Text.toLower r.1], text := r.1 } r.2) = _
  rw [hdots _ _ rfl]
  change iterate typeSuffix written _ = _
  rw [(Comes.round hopen hlt (comes_brackets labelled k)).iterate_eq, iterate,
    typeSuffix_ends _ hparen hlayer hword]
  simp only [labelled, written, labelledType, Nat.zero_add]

-- ---------------------------------------------------------------------------
-- Columns
-- ---------------------------------------------------------------------------

/-- A column `n` comes first, with the type `w`. -/
def Announces (ts : List Token) (n : String) (w : WrittenType) : Prop :=
  ∃ left rest, name "column name" ts = .ok (n, left) ∧ writtenType n left = .ok (w, rest)

/-- The name of a column, and what its written type means. -/
def WrittenType.signature (w : WrittenType) (dialect : Dialect) (table n : String) :
    String × String × SqlType :=
  (n, w.text, (w.meaning dialect table n).dataType)

/-- No clause changes what is declared of a column. -/
theorem clauseInvariant_signature (signature : String × String × SqlType) :
    ClauseInvariant fun d => d.column.signature = signature where
  change hf h := (hf _).trans h
  reference _ h := h

/-- A column that is read has the name and the type that come first, whatever its clauses say. -/
theorem announces_of_column {d : ColumnDefinition} (h : column dialect table ts = .ok (d, rest)) :
    ∃ w, Announces ts d.column.name w ∧
      d.column.signature = w.signature dialect table d.column.name ∧
      d.inlineEnum = w.inlineEnum? table d.column.name := by
  rw [column] at h
  obtain ⟨n, left, hname, h⟩ := bind_eq_ok h
  obtain ⟨w, left', htype, h⟩ := bind_eq_ok h
  obtain ⟨draft, left'', hclauses, h⟩ := bind_eq_ok h
  cases h
  have hsignature : draft.column.signature = w.signature dialect table n :=
    Yields.iterate (I := fun d => d.column.signature = w.signature dialect table n) rfl
      (fun _ hd => yields_columnClause (clauseInvariant_signature _) hd) _ _ _ hclauses
  obtain rfl : draft.column.name = n := congrArg Prod.fst hsignature
  exact ⟨w, ⟨left, left', hname, htype⟩, hsignature, rfl⟩

-- ---------------------------------------------------------------------------
-- Statements
-- ---------------------------------------------------------------------------

/-- Reads what stands between `ADD` and a column. -/
def columnOpening : Parser Unit := do
  if ← accept (· == .keyword .constraint) then discard <| name "constraint name"
  discard <| accept (isWord "COLUMN")
  discard skipIfExists

/-- A statement declares a column: as an element of a table, or in a part of an `ALTER TABLE`. -/
inductive Declares (dialect : Dialect) : List Token → String → String → WrittenType → Prop
  | element {ifNotExists : Bool} {table n : String} {d : TableDraft} {w : WrittenType}
      {ts left left' elements rest : List Token}
      (hmodifiers : modifiers ts = .ok ((), .keyword .table :: left))
      (hif : skipIfExists left = .ok (ifNotExists, left'))
      (htable : qualifiedName "table name" left' = .ok (table, .lparen :: elements))
      (helements : Comes (tableElement dialect table) {} elements d rest)
      (hbegins : beginsColumn rest = true) (hcolumn : Announces rest n w) :
      Declares dialect (.keyword .create :: ts) table n w
  | part {word only : Bool} {table n : String} {actions : List AlterAction} {w : WrittenType}
      {ts left left' parts addition rest : List Token} (hif : skipIfExists ts = .ok (word, left))
      (honly : accept (· == .keyword .only) left = .ok (only, left'))
      (htable : qualifiedName "table name" left' = .ok (table, parts))
      (hparts : Comes (alterElement dialect table) [] parts actions (.keyword .add :: addition))
      (hopening : columnOpening addition = .ok ((), rest)) (hcolumn : Announces rest n w) :
      Declares dialect (.keyword .alter :: .keyword .table :: ts) table n w

/-- An element of a table adds a column, or leaves the columns as they are. -/
theorem tableElement_cases {d : TableDraft} {next : ForInStep TableDraft}
    (h : tableElement dialect table d ts = .ok (next, rest)) :
    (next.value.columns = d.columns ∧ next.value.inlineEnums = d.inlineEnums) ∨
      beginsColumn ts = true ∧ ∃ c left, column dialect table ts = .ok (c, left) ∧
        d.addColumn c = .ok next.value := by
  cases hbegins : beginsColumn ts with
  | true =>
    rw [tableElement_column hbegins] at h
    obtain ⟨c, left, hc, h⟩ := bind_eq_ok h
    obtain ⟨d', left', hadd, h⟩ := bind_eq_ok h
    cases h
    exact .inr ⟨rfl, c, left, hc, (lift_eq_ok hadd).1⟩
  | false =>
    -- constraints, indexes and skipped elements leave columns and enumerations alone
    let Keeps (next : ForInStep TableDraft) :=
      next.value.columns = d.columns ∧ next.value.inlineEnums = d.inlineEnums
    have hconstraint {p : Parser TableConstraint} : Yields (do
        return .yield (d.addConstraint (← p))) Keeps :=
      .next fun _ => .pure ⟨rfl, rfl⟩
    have hindex : Yields (do
        advance
        return .yield (d.addConstraint (.index (← indexBody)))) Keeps :=
      .next fun _ => .next fun _ => .pure ⟨rfl, rfl⟩
    have hskipped {t : Token} (ht : isOneOf skippedElements t = true)
        (p : Parser (ForInStep TableDraft)) : Yields (do
          if isOneOf skippedElements t then
            skipElement
            return .yield d
          else p) Keeps :=
      .ite (fun _ => .next fun _ => .pure ⟨rfl, rfl⟩) fun hnot => absurd ht hnot
    refine .inl ?_
    cases ts with
    | nil => cases h
    | cons t ts =>
      cases t with
      | rparen | comma =>
        cases h
        exact ⟨rfl, rfl⟩
      | eof => cases h
      -- the first token tells which element it is
      | keyword k =>
        cases k with
        | constraint =>
          change (name "constraint name" >>= fun n => (do
            return .yield (d.addConstraint (← tableConstraint (some n))) :
              Parser (ForInStep TableDraft))) ts = _ at h
          exact Yields.next (fun _ => hconstraint) _ _ _ h
        | primary | unique | foreign | check => exact hconstraint _ _ _ h
        | index | key =>
          have hindex' : beginsIndex ts = true := by simpa [beginsColumn, front] using hbegins
          change (if beginsIndex ts = true then _ else _ : Parser (ForInStep TableDraft))
            (_ :: ts) = _ at h
          rw [hindex'] at h
          exact hindex _ _ _ h
        | _ => cases hbegins
      | ident word =>
        change (!isOneOf skippedElements (.ident word)) = false at hbegins
        exact hskipped (by simpa using hbegins) _ (.ident word :: ts) _ _ h
      | _ => cases hbegins

/-- A column stands behind the others, and its labels too. -/
theorem TableDraft.addColumn_keeps {d d' : TableDraft} {c : ColumnDefinition}
    (h : d.addColumn c = .ok d') : d'.columns = d.columns ++ [c.column] ∧
      d'.inlineEnums = d.inlineEnums ++ c.inlineEnum.toList := by
  unfold addColumn at h
  split at h
  · cases h
  · cases h
    exact ⟨rfl, rfl⟩

/-- A constraint touches neither the name of a table nor its columns. -/
theorem applyConstraint_keeps {s s' : Table × List PendingForeignKey} {c : TableConstraint}
    (h : applyConstraint s c = .ok s') : s'.1.name = s.1.name ∧ s'.1.columns = s.1.columns := by
  obtain ⟨t, fks⟩ := s
  cases c with
  | primaryKey columns =>
    obtain ⟨found, -, hset⟩ := ok_of_bind h
    dsimp only at hset
    split at hset
    · cases hset
    · cases hset
      exact ⟨rfl, rfl⟩
  | unique | foreignKey | index =>
    obtain ⟨found, -, hset⟩ := ok_of_bind h
    cases hset
    exact ⟨rfl, rfl⟩
  | ignored =>
    cases h
    exact ⟨rfl, rfl⟩

/-- A definition keeps what is declared of its columns. -/
theorem TableDraft.definition_keeps {d : TableDraft} {ifNotExists : Bool} {t : TableDefinition}
    (h : d.definition table ifNotExists = .ok t) :
    t.table.name = table ∧ t.table.columns.map (·.signature) = d.columns.map (·.signature) ∧
      t.inlineEnums = d.inlineEnums := by
  unfold TableDraft.definition at h
  dsimp only at h
  split at h
  · cases h
  · split at h
    · cases h
    · obtain ⟨s, hall, hmade⟩ := ok_of_bind h
      have hs := foldlM_ok
        (I := fun s : Table × List PendingForeignKey => s.1.name = table ∧ s.1.columns = d.columns)
        (fun c _ s s' hs hc => (applyConstraint_keeps hc).imp (·.trans hs.1) (·.trans hs.2))
        ⟨rfl, rfl⟩ hall
      cases hmade
      refine ⟨hs.1, ?_, rfl⟩
      rw [Table.signatures_markPrimaryKey, hs.2]

/-- What is known of a column of a definition: its statement declares it, and asks for the
enumeration of its type. -/
def DeclaredIn (dialect : Dialect) (ts : List Token) (table : String) (enums : List EnumType)
    (c : Column) : Prop :=
  ∃ w, Declares dialect ts table c.name w ∧ c.signature = w.signature dialect table c.name ∧
    ∀ e ∈ w.inlineEnum? table c.name, e ∈ enums

/-- Only a statement that begins as one defines a table. -/
theorem createTable_of_statement {t : TableDefinition}
    (h : statement dialect ts = .ok (.createTable t, rest)) :
    ∃ more left, ts = .keyword .create :: more ∧
      modifiers more = .ok ((), .keyword .table :: left) ∧
        createTable dialect left = .ok (.createTable t, rest) := by
  have hread : YieldsAt (statement dialect) ts fun s rest => s = .createTable t → ∃ more left,
      ts = .keyword .create :: more ∧ modifiers more = .ok ((), .keyword .table :: left) ∧
        createTable dialect left = .ok (.createTable t, rest) := by
    refine .look fun first hfirst => ?_
    split
    · obtain ⟨more, rfl⟩ := cons_of_front hfirst Token.noConfusion
      refine .bind fun _ _ hmore => ?_
      cases hmore
      refine .bind fun _ left hmodifiers => .look fun what hwhat => ?_
      split
      · obtain ⟨left, rfl⟩ := cons_of_front hwhat Token.noConfusion
        refine .bind fun _ _ hleft => ?_
        cases hleft
        rintro s rest hcreate rfl
        exact ⟨more, left, rfl, hmodifiers, hcreate⟩
      -- the other forms of `CREATE` give other statements
      · refine (Yields.next fun _ => .next fun _ => yields_createIndex).at ?_
        rintro _ _ ⟨_, _, rfl⟩ ⟨⟩
      · refine (Yields.next fun _ => yields_createIndex).at ?_
        rintro _ _ ⟨_, _, rfl⟩ ⟨⟩
      · refine (Yields.next fun _ => yields_createSequence).at ?_
        rintro _ _ ⟨_, rfl⟩ ⟨⟩
      · refine (Yields.ite (fun _ => .next fun _ => yields_createType)
          fun _ => .pure (.inl rfl)).at ?_
        rintro _ _ (rfl | ⟨_, rfl⟩) ⟨⟩
    · refine (Yields.next fun _ => yields_alter).at ?_
      rintro _ _ (rfl | ⟨_, _, rfl, -⟩) ⟨⟩
    · exact .pure nofun
  exact hread _ _ h rfl

/-- A definition is read from the elements that stand behind the name of its table. -/
theorem elements_of_createTable {t : TableDefinition}
    (h : createTable dialect ts = .ok (.createTable t, rest)) :
    ∃ ifNotExists table left elements d left', skipIfExists ts = .ok (ifNotExists, left) ∧
      qualifiedName "table name" left = .ok (table, .lparen :: elements) ∧
      iterate (tableElement dialect table) {} elements = .ok (d, left') ∧
      d.definition table ifNotExists = .ok t := by
  obtain ⟨ifNotExists, left, hif, h⟩ := bind_eq_ok h
  obtain ⟨table, left', htable, h⟩ := bind_eq_ok h
  obtain ⟨paren, elements, hparen, h⟩ := bind_eq_ok h
  cases paren with
  | false => cases h
  | true =>
    rw [cons_of_accept Token.noConfusion hparen] at htable
    obtain ⟨d, left', helements, h⟩ := bind_eq_ok h
    obtain ⟨t', left'', hdefinition, h⟩ := bind_eq_ok h
    cases h
    exact ⟨ifNotExists, table, left, elements, d, left', hif, htable, helements,
      (lift_eq_ok hdefinition).1⟩

/-- What is declared of a column is declared of one with the same name and type. -/
theorem DeclaredIn.of_signature {enums : List EnumType} {c c' : Column}
    (h : DeclaredIn dialect ts table enums c) (hc : c'.signature = c.signature) :
    DeclaredIn dialect ts table enums c' := by
  have hname : c'.name = c.name := congrArg Prod.fst hc
  rw [DeclaredIn, hname, hc]
  exact h

theorem DeclaredIn.mono {enums enums' : List EnumType} {c : Column}
    (h : DeclaredIn dialect ts table enums c) (henums : enums ⊆ enums') :
    DeclaredIn dialect ts table enums' c := by
  obtain ⟨w, hdeclares, hc, hasked⟩ := h
  exact ⟨w, hdeclares, hc, fun e he => henums (hasked e he)⟩

/-- **Definitions.** Every column of a definition is declared in its statement. -/
theorem declares_of_createTable {t : TableDefinition}
    (h : Statement.parse dialect ts = .ok (.createTable t)) :
    ∀ c ∈ t.table.columns, DeclaredIn dialect ts t.table.name t.inlineEnums c := by
  obtain ⟨⟨_, rest⟩, hrun, rfl⟩ := ok_of_map h
  obtain ⟨more, left, rfl, hmodifiers, hcreate⟩ := createTable_of_statement hrun
  obtain ⟨ifNotExists, table, left', elements, d, last, hif, htable, helements, hdefinition⟩ :=
    elements_of_createTable hcreate
  obtain ⟨rfl, hsignatures, henums⟩ := TableDraft.definition_keeps hdefinition
  -- on the way through the elements, every column was declared where it was read
  have hd : ∀ c ∈ d.columns,
      DeclaredIn dialect (.keyword .create :: more) t.table.name d.inlineEnums c := by
    refine Comes.yields (I := fun d => ∀ c ∈ d.columns,
      DeclaredIn dialect (.keyword .create :: more) t.table.name d.inlineEnums c)
      helements (by rintro _ ⟨⟩) fun {d next} _ _ hcomes hold hstep => ?_
    rcases tableElement_cases hstep with ⟨hcolumns, henums⟩ | ⟨hbegins, c, left, hc, hadd⟩
    · rw [hcolumns, henums]
      exact hold
    · obtain ⟨w, hannounces, hsignature, henum⟩ := announces_of_column hc
      obtain ⟨hcolumns, henums⟩ := TableDraft.addColumn_keeps hadd
      rw [hcolumns, henums]
      refine List.forall_mem_append.2 ⟨fun old hmem => ?_, List.forall_mem_singleton.2 ?_⟩
      · exact (hold old hmem).mono (List.subset_append_left _ _)
      · refine ⟨w, .element hmodifiers hif htable hcomes hbegins hannounces, hsignature, ?_⟩
        intro e he
        rw [← henum] at he
        exact List.mem_append_right _ (Option.mem_toList.2 he)
  rw [henums]
  intro c hc
  obtain ⟨old, hold, heq⟩ := List.mem_map.1 (hsignatures ▸ List.mem_map_of_mem hc)
  exact (hd old hold).of_signature heq.symm

-- ---------------------------------------------------------------------------
-- Changes
-- ---------------------------------------------------------------------------

/-- Only a statement that begins as one alters a table. -/
theorem alter_of_statement {actions : List AlterAction}
    (h : statement dialect ts = .ok (.change (.alter table actions), rest)) :
    ∃ more, ts = .keyword .alter :: more ∧
      alter dialect more = .ok (.change (.alter table actions), rest) := by
  -- `CREATE` changes tables by indexes only
  have hcreate : Yields (create dialect) fun s => s ≠ .change (.alter table actions) := by
    refine .next fun _ => .next fun t => ?_
    split
    · refine .next fun _ => .next fun _ => .next fun _ => .next fun _ => .ite (fun _ => ?_)
        fun _ => .pure nofun
      exact .next fun _ => .next fun _ => .pure nofun
    · exact .next fun _ => .next fun _ => yields_createIndex.imp (by rintro _ ⟨_, _, rfl⟩ ⟨⟩)
    · exact .next fun _ => yields_createIndex.imp (by rintro _ ⟨_, _, rfl⟩ ⟨⟩)
    · exact .next fun _ => yields_createSequence.imp (by rintro _ ⟨_, rfl⟩ ⟨⟩)
    · exact .ite (fun _ => .next fun _ => yields_createType.imp (by rintro _ (rfl | ⟨_, rfl⟩) ⟨⟩))
        fun _ => .pure nofun
  have hread : YieldsAt (statement dialect) ts fun s rest => s = .change (.alter table actions) →
      ∃ more, ts = .keyword .alter :: more ∧
        alter dialect more = .ok (.change (.alter table actions), rest) := by
    -- the first token decides: `ALTER`, or a statement of another kind
    refine .look fun first hfirst => ?_
    split
    · exact (Yields.next fun _ => hcreate).at fun _ _ hne heq => absurd heq hne
    · obtain ⟨more, rfl⟩ := cons_of_front hfirst Token.noConfusion
      refine .bind fun _ _ hmore => ?_
      cases hmore
      rintro s rest halter rfl
      exact ⟨more, rfl, halter⟩
    · exact .pure nofun
  exact hread _ _ h rfl

/-- A change is read from the parts that stand behind the name of its table. -/
theorem parts_of_alter {actions : List AlterAction}
    (h : alter dialect ts = .ok (.change (.alter table actions), rest)) :
    ∃ more word left only left' parts, ts = .keyword .table :: more ∧
      skipIfExists more = .ok (word, left) ∧ accept (· == .keyword .only) left = .ok (only, left') ∧
      qualifiedName "table name" left' = .ok (table, parts) ∧
      iterate (alterElement dialect table) [] parts = .ok (actions, rest) := by
  obtain ⟨found, more, hfound, h⟩ := bind_eq_ok h
  cases found with
  | false => cases h
  | true =>
    obtain ⟨⟨⟩, left, hif, h⟩ := bind_eq_ok h
    obtain ⟨⟨⟩, left', honly, h⟩ := bind_eq_ok h
    obtain ⟨written, parts, htable, h⟩ := bind_eq_ok h
    obtain ⟨made, rest', hparts, h⟩ := bind_eq_ok h
    cases h
    obtain ⟨word, hif⟩ := discard_iff.1 hif
    obtain ⟨only, honly⟩ := discard_iff.1 honly
    exact ⟨more, word, left, only, left', parts, cons_of_accept Token.noConfusion hfound, hif,
      honly, htable, hparts⟩

/-- A column is added with or without the word `COLUMN`. -/
theorem addition_of_column {constraint : Option String} {d : ColumnDefinition}
    (h : addition dialect table constraint ts = .ok (some (.addColumn d), rest)) :
    ∃ word left exists' place, accept (isWord "COLUMN") ts = .ok (word, left) ∧
      skipIfExists left = .ok (exists', place) ∧ column dialect table place = .ok (d, rest) := by
  have hconstraint : Yields (do
      return TableConstraint.action? (← tableConstraint constraint)) fun action =>
        action ≠ some (.addColumn d) :=
    .next fun c => .pure (by cases c <;> nofun)
  have hindex : Yields (do
      advance
      return some (AlterAction.addIndex (← indexBody))) fun action =>
        action ≠ some (.addColumn d) :=
    .next fun _ => .next fun _ => .pure nofun
  have hcolumn : YieldsAt (addition dialect table constraint) ts fun action rest =>
      action = some (.addColumn d) → ∃ word left exists' place,
        accept (isWord "COLUMN") ts = .ok (word, left) ∧
          skipIfExists left = .ok (exists', place) ∧
            column dialect table place = .ok (d, rest) := by
    refine .look fun t _ => ?_
    -- each branch but the last adds a constraint or an index
    split
    · exact hconstraint.at fun _ _ hne heq => absurd heq hne
    · exact hconstraint.at fun _ _ hne heq => absurd heq hne
    · exact hconstraint.at fun _ _ hne heq => absurd heq hne
    · exact hconstraint.at fun _ _ hne heq => absurd heq hne
    · exact hindex.at fun _ _ hne heq => absurd heq hne
    · exact hindex.at fun _ _ hne heq => absurd heq hne
    · refine .bind fun _ left hword => .bind fun _ place hif => .bind fun d' rest hd => .pure ?_
      rintro ⟨⟩
      obtain ⟨word, hword⟩ := discard_iff.1 hword
      obtain ⟨exists', hif⟩ := discard_iff.1 hif
      exact ⟨word, left, exists', place, hword, hif, hd⟩
  exact hcolumn _ _ h rfl

/-- A column that is added stands behind the words that open it. -/
theorem opening_of_alterAdd {d : ColumnDefinition}
    (h : alterAdd dialect table ts = .ok (some (.addColumn d), rest)) :
    ∃ place, columnOpening ts = .ok ((), place) ∧ column dialect table place = .ok (d, rest) := by
  obtain ⟨named, left, hnamed, h⟩ := bind_eq_ok h
  have hopening {left left' place : List Token} {word exists' : Bool}
      (hword : accept (isWord "COLUMN") left = .ok (word, left'))
      (hif : skipIfExists left' = .ok (exists', place)) : (do
        discard <| accept (isWord "COLUMN")
        discard skipIfExists : Parser Unit) left = .ok ((), place) :=
    (bind_of_ok (discard_iff.2 ⟨_, hword⟩)).trans (discard_iff.2 ⟨_, hif⟩)
  -- a name may be given, which a column has no use for
  cases named with
  | true =>
    obtain ⟨constraint, left', hconstraint, h⟩ := bind_eq_ok h
    change (name "constraint name" >>= fun n => pure (some n)) left = _ at hconstraint
    obtain ⟨n, left'', hname, hconstraint⟩ := bind_eq_ok hconstraint
    cases hconstraint
    obtain ⟨word, _, exists', place, hword, hif, hd⟩ := addition_of_column h
    refine ⟨place, (bind_of_ok hnamed).trans ?_, hd⟩
    exact (bind_of_ok (discard_iff.2 ⟨_, hname⟩)).trans (hopening hword hif)
  | false =>
    obtain ⟨word, _, exists', place, hword, hif, hd⟩ := addition_of_column h
    exact ⟨place, (bind_of_ok hnamed).trans (hopening hword hif), hd⟩

/-- A part of an `ALTER TABLE` adds a column, or none. -/
theorem alterElement_cases {actions : List AlterAction} {next : ForInStep (List AlterAction)}
    (h : alterElement dialect table actions ts = .ok (next, rest)) {d : ColumnDefinition}
    (hd : .addColumn d ∈ next.value) :
    .addColumn d ∈ actions ∨ ∃ more left, ts = .keyword .add :: more ∧
      alterAdd dialect table more = .ok (some (.addColumn d), left) := by
  have hpart : YieldsAt (alterElement dialect table actions) ts fun next _ =>
      .addColumn d ∈ next.value → .addColumn d ∈ actions ∨ ∃ more left,
        ts = .keyword .add :: more ∧
          alterAdd dialect table more = .ok (some (.addColumn d), left) := by
    refine .look fun t ht => ?_
    split
    · exact .pure .inl
    · exact .bind fun _ _ _ => .pure .inl
    · exact .bind fun _ _ _ => .pure .inl
    -- only `ADD` brings a column
    · obtain ⟨more, rfl⟩ := cons_of_front ht Token.noConfusion
      refine .bind fun _ _ hmore => .bind fun action left haction => .pure fun hd => ?_
      cases hmore
      refine (List.mem_append.1 hd).imp_right fun hd => ⟨more, left, rfl, ?_⟩
      rw [← Option.mem_toList.1 hd]
      exact haction
    · refine .bind fun _ _ _ => .bind fun action _ haction => .pure fun hd => ?_
      refine (List.mem_append.1 hd).imp_right fun hd => ?_
      obtain ⟨_, _, ⟨⟩⟩ := yields_alterColumn _ _ _ haction _ (Option.mem_toList.1 hd)
    · exact .bind fun _ _ _ => .pure .inl
  exact hpart _ _ h hd

/-- **Changes.** Every column that a change adds is declared in its statement. -/
theorem declares_of_alter {actions : List AlterAction} {d : ColumnDefinition}
    (h : Statement.parse dialect ts = .ok (.change (.alter table actions)))
    (hd : .addColumn d ∈ actions) :
    DeclaredIn dialect ts table d.inlineEnum.toList d.column := by
  obtain ⟨⟨_, rest⟩, hrun, rfl⟩ := ok_of_map h
  obtain ⟨_, rfl, halter⟩ := alter_of_statement hrun
  obtain ⟨more, word, left, only, left', parts, rfl, hif, honly, htable, hparts⟩ :=
    parts_of_alter halter
  revert hd
  refine Comes.yields (I := fun actions => .addColumn d ∈ actions →
    DeclaredIn dialect _ table d.inlineEnum.toList d.column)
    hparts nofun fun hcomes hold hstep hd => ?_
  rcases alterElement_cases hstep hd with hmem | ⟨addition, left, rfl, hadd⟩
  · exact hold hmem
  · obtain ⟨place, hopening, hcolumn⟩ := opening_of_alterAdd hadd
    obtain ⟨w, hannounces, hsignature, henum⟩ := announces_of_column hcolumn
    refine ⟨w, .part hif honly htable hcomes hopening hannounces, hsignature, fun e he => ?_⟩
    rw [← henum] at he
    exact Option.mem_toList.2 he

end CrudGen.Sql.Parser
