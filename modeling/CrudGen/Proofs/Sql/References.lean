import CrudGen.Proofs.Sql.Elements
import CrudGen.Proofs.Sql.Folded

/-!
# Tables — where references stand

`TableAt dialect ts τ` says that the parser of a table, on its way through `ts`, comes to the name of
a table or column that the table refers to, and that `τ` is what it has before it there. There is one
such relation for each part of the grammar that refers to something. What is read looks the same when
that name is spelled in another case (`SameAt`).

Main results:

* `sameAt_tableConstraint` — so it is for the columns of a constraint and for what a foreign key
  refers to.
* `sameAt_tableElement` — so it is for every element of a table.
-/

namespace CrudGen.Sql.Parser

open Text (foldAscii sameName)

-- ---------------------------------------------------------------------------
-- Places of references
-- ---------------------------------------------------------------------------

/-- The last part of a name with dots: it is what the name refers to. -/
inductive NameAt : List Token → List Token → Prop
  | last {t : Token} {ts : List Token} (hend : front ts ≠ .dot) : NameAt (t :: ts) (t :: ts)
  | after {t : Token} {ts τ : List Token} (ht : (nameOf? t).isSome = true) (h : NameAt ts τ) :
      NameAt (t :: .dot :: ts) τ

/-- A column of a list. -/
inductive ListAt : List Token → List Token → Prop
  | column {columns : List String} {ts τ : List Token} (h : Comes listColumn [] ts columns τ) :
      ListAt (.lparen :: ts) τ

/-- What follows `REFERENCES`: a table, which may have a list of columns. -/
inductive ReferenceAt : List Token → List Token → Prop
  | table {ts τ : List Token} (h : NameAt ts τ) : ReferenceAt ts τ
  | column {table : String} {ts rest τ : List Token}
      (htable : qualifiedName "referenced table" ts = .ok (table, rest)) (h : ListAt rest τ) :
      ReferenceAt ts τ

/-- What may stand between the first word of an index and its columns: a name and a method. -/
inductive IndexHead : List Token → Prop
  | none : IndexHead []
  | name {n : String} (hn : sameName n "USING" = false) : IndexHead [.ident n]
  | method {u t : Token} (hu : isWord "USING" u = true) (ht : (nameOf? t).isSome = true) :
      IndexHead [u, t]
  | both {n : String} {u t : Token} (hn : sameName n "USING" = false) (hu : isWord "USING" u = true)
      (ht : (nameOf? t).isSome = true) : IndexHead [.ident n, u, t]

/-- What may stand between `FOREIGN KEY` and the columns. -/
def IndexName (ts : List Token) : Prop :=
  ts = [] ∨ ∃ n, ts = [.ident n]

/-- A constraint of a table, from its keyword on. -/
inductive ConstraintAt : List Token → List Token → Prop
  | primaryKey {ts τ : List Token} (h : ListAt ts τ) :
      ConstraintAt (.keyword .primary :: .keyword .key :: ts) τ
  | unique {word label ts τ : List Token} (hword : word ∈ [[], [.keyword .key], [.keyword .index]])
      (hlabel : IndexName label) (h : ListAt ts τ) :
      ConstraintAt (.keyword .unique :: (word ++ (label ++ ts))) τ
  | foreignKey {label ts τ : List Token} (hlabel : IndexName label) (h : ListAt ts τ) :
      ConstraintAt (.keyword .foreign :: .keyword .key :: (label ++ ts)) τ
  | references {columns : List String} {label ts rest τ : List Token} (hlabel : IndexName label)
      (hcolumns : columnList ts = .ok (columns, .keyword .references :: rest))
      (h : ReferenceAt rest τ) :
      ConstraintAt (.keyword .foreign :: .keyword .key :: (label ++ ts)) τ
  | index {k : Keyword} {head ts τ : List Token} (hk : k = .key ∨ k = .index)
      (hhead : IndexHead head) (h : ListAt ts τ) : ConstraintAt (.keyword k :: (head ++ ts)) τ

/-- A column of a table: it refers to something in its `REFERENCES` clause. -/
inductive ColumnAt (dialect : Dialect) (table : String) : List Token → List Token → Prop
  | reference {columnName : String} {written : WrittenType} {d : ColumnDraft}
      {ts left left' rest τ : List Token} (hname : name "column name" ts = .ok (columnName, left))
      (htype : writtenType columnName left = .ok (written, left'))
      (hclauses : Comes columnClause (.start dialect table columnName written) left' d
        (.keyword .references :: rest)) (h : ReferenceAt rest τ) :
      ColumnAt dialect table ts τ

/-- Whether an element of a table begins a column. -/
def beginsColumn (ts : List Token) : Bool :=
  match front ts with
  | .rparen | .comma | .eof => false
  | .keyword k =>
    if [Keyword.index, .key].contains k then !beginsIndex (ts.drop 1)
    else !List.contains [Keyword.constraint, .primary, .unique, .foreign, .check] k
  | t => !isOneOf skippedElements t

/-- An element of a table. -/
inductive ElementAt (dialect : Dialect) (table : String) : List Token → List Token → Prop
  | named {t : Token} {ts τ : List Token} (ht : (nameOf? t).isSome = true) (h : ConstraintAt ts τ) :
      ElementAt dialect table (.keyword .constraint :: t :: ts) τ
  | constraint {k : Keyword} {ts τ : List Token} (hk : k ∈ [Keyword.primary, .unique, .foreign])
      (h : ConstraintAt (.keyword k :: ts) τ) : ElementAt dialect table (.keyword k :: ts) τ
  | index {k : Keyword} {head ts τ : List Token} (hk : k = .key ∨ k = .index)
      (hbegins : beginsIndex (head ++ ts) = true) (hhead : IndexHead head) (h : ListAt ts τ) :
      ElementAt dialect table (.keyword k :: (head ++ ts)) τ
  | column {ts τ : List Token} (hbegins : beginsColumn ts = true)
      (h : ColumnAt dialect table ts τ) : ElementAt dialect table ts τ

/-- What follows `CREATE TABLE`. -/
inductive TableAt (dialect : Dialect) : List Token → List Token → Prop
  | element {ifNotExists : Bool} {table : String} {d : TableDraft}
      {ts left elements rest τ : List Token} (hif : skipIfExists ts = .ok (ifNotExists, left))
      (htable : qualifiedName "table name" left = .ok (table, .lparen :: elements))
      (helements : Comes (tableElement dialect table) {} elements d rest)
      (h : ElementAt dialect table rest τ) : TableAt dialect ts τ

-- ---------------------------------------------------------------------------
-- Another spelling of one name
-- ---------------------------------------------------------------------------

section

variable {α β γ δ σ : Type} {n n' : String} {rest : List Token}

/-- What `p` reads looks the same after the identifier `n`, which stands before `rest`, is replaced
by `n'`. -/
def SameAt (n n' : String) (rest : List Token) (view : α → γ) (p : Parser α) (ts : List Token) :
    Prop :=
  ∃ before, ts = before ++ .ident n :: rest ∧
    LooksAlike view (p ts) (p (before ++ .ident n' :: rest))

namespace SameAt

variable {view : α → γ} {view' : β → δ} {p q : Parser α} {f : α → Parser β} {ts left : List Token}
  {a : α}

/-- The name is read by the first of two parsers. -/
theorem bind (h : SameAt n n' rest view p ts)
    (hf : ∀ a b, view a = view b → Alike view' (f a) (f b)) :
    SameAt n n' rest view' (p >>= f) ts := by
  obtain ⟨before, hts, hp⟩ := h
  refine ⟨before, hts, ?_⟩
  change LooksAlike view' (Except.bind (p ts) fun r => f r.1 r.2)
    (Except.bind (p (before ++ .ident n' :: rest)) fun r => f r.1 r.2)
  generalize p ts = x at hp
  generalize p (before ++ .ident n' :: rest) = y at hp
  cases hp with
  | error e => exact .error e
  | ok hsame => exact hf _ _ hsame _

theorem map {g : α → β} (h : SameAt n n' rest view p ts)
    (hg : ∀ a b, view a = view b → view' (g a) = view' (g b)) :
    SameAt n n' rest view' (g <$> p) ts :=
  bind h fun a b hab => .pure (hg a b hab)

/-- The name is read by the second of two parsers. -/
theorem after (hp : p ts = .ok (a, left))
    (hlocal : Local (.ident n :: rest) (.ident n' :: rest) True p)
    (h : SameAt n n' rest view' (f a) left) : SameAt n n' rest view' (p >>= f) ts := by
  obtain ⟨mid, rfl, hsame⟩ := h
  obtain ⟨before, rfl⟩ := hlocal.suffix hp
  refine ⟨before ++ mid, (List.append_assoc _ _ _).symm, ?_⟩
  rw [← List.append_assoc] at hp
  have hmoved := hlocal.moves (before ++ mid) (fun _ => trivial) hp
  change LooksAlike view' (Except.bind (p (before ++ (mid ++ .ident n :: rest))) fun r => f r.1 r.2)
    (Except.bind (p (before ++ mid ++ .ident n' :: rest)) fun r => f r.1 r.2)
  rw [hmoved, ← List.append_assoc, hp]
  exact hsame

/-- The name stands behind the next token. -/
theorem look_of_ne {f : Token → Parser β} (hne : ts ≠ .ident n :: rest)
    (h : SameAt n n' rest view' (f (front ts)) ts) : SameAt n n' rest view' (current >>= f) ts := by
  obtain ⟨before, rfl, hsame⟩ := h
  refine ⟨before, rfl, ?_⟩
  cases before with
  | nil => exact absurd rfl hne
  | cons t before => exact hsame

/-- A token that is not the name decides what is read. -/
theorem look {f : Token → Parser β} (hne : front ts ≠ .ident n)
    (h : SameAt n n' rest view' (f (front ts)) ts) : SameAt n n' rest view' (current >>= f) ts :=
  look_of_ne (fun hts => hne (congrArg front hts)) h

/-- The name stands behind tokens that `p` drops in front of `t`. -/
theorem drop {t : Token} (pre : List Token) (ht : t ≠ .ident n)
    (hp : ∀ more, p (pre ++ t :: more) = q (t :: more))
    (h : SameAt n n' rest view q (t :: ts)) : SameAt n n' rest view p (pre ++ t :: ts) := by
  obtain ⟨before, hts, hsame⟩ := h
  cases before with
  | nil => exact absurd (List.cons.inj hts).1 ht
  | cons u before =>
    obtain ⟨rfl, rfl⟩ := List.cons.inj hts
    refine ⟨pre ++ t :: before, by simp, ?_⟩
    rw [List.append_assoc, List.cons_append, hp, hp]
    exact hsame

/-- The name is read in a later round of a repetition. -/
theorem iterate {view : σ → γ} {step : σ → Parser (ForInStep σ)} {s s' : σ}
    (hcomes : Comes step s ts s' left)
    (hlocal : ∀ s, Local (.ident n :: rest) (.ident n' :: rest) True (step s))
    (h : SameAt n n' rest (stepView view) (step s') left)
    (hstep : ∀ s s', view s = view s' → Alike (stepView view) (step s) (step s')) :
    SameAt n n' rest view (Parser.iterate step s) ts := by
  obtain ⟨mid, rfl, hsame⟩ := h
  -- the rounds before the name are the same; the one that reads it differs in the fold only
  obtain ⟨before, rfl⟩ := hcomes.suffix hlocal
  refine ⟨before ++ mid, (List.append_assoc _ _ _).symm, ?_⟩
  rw [← List.append_assoc] at hcomes
  have hmoved := hcomes.moves hlocal fun _ => trivial
  rw [hmoved.iterate_eq, ← List.append_assoc, hcomes.iterate_eq, Parser.iterate, Parser.iterate]
  have hlength : (mid ++ .ident n' :: rest).length = (mid ++ .ident n :: rest).length := by
    rw [List.length_append, List.length_append]
    rfl
  rw [hlength]
  generalize step s' (mid ++ .ident n :: rest) = x at hsame
  generalize step s' (mid ++ .ident n' :: rest) = y at hsame
  cases hsame with
  | error e => exact .error e
  | @ok next next' left hnext =>
    -- what that round gives is handed on, and the later rounds keep the fold
    cases next with
    | done u =>
      obtain ⟨u', rfl, hu⟩ := stepView_done hnext
      exact .ok hu
    | yield u =>
      obtain ⟨u', rfl, hu⟩ := stepView_yield hnext
      dsimp only
      split
      · exact Alike.iterate hu hstep _
      · exact .ok hu

end SameAt

-- ---------------------------------------------------------------------------
-- Names and lists
-- ---------------------------------------------------------------------------

/-- The last part of a name, in lower case. -/
def lastFolded (parts : List String) : String :=
  foldAscii (parts.getLast?.getD "")

variable (hname : sameName n n' = true)
include hname

/-- Names that are the same in any case are the same in lower case. -/
theorem foldAscii_eq : foldAscii n = foldAscii n' :=
  beq_iff_eq.1 hname

/-- What a name with dots refers to is its last part in any case. -/
theorem lastFolded_concat (parts : List String) :
    lastFolded (parts ++ [n]) = lastFolded (parts ++ [n']) := by
  simp [lastFolded, foldAscii_eq hname]

/-- More parts of a name end in the same one when the last of them is spelled differently. -/
theorem sameAt_moreParts {ts : List Token} (what : String) (h : NameAt ts (.ident n :: rest))
    (parts : List String) : SameAt n n' rest lastFolded (moreParts what parts) (.dot :: ts) := by
  generalize hτ : Token.ident n :: rest = τ at h
  induction h generalizing parts with
  | last hend =>
    obtain ⟨rfl, rfl⟩ := List.cons.inj hτ
    refine ⟨[.dot], rfl, ?_⟩
    change LooksAlike _ _ (moreParts what parts (.dot :: .ident n' :: rest))
    rw [moreParts_dot rfl, moreParts_dot rfl, moreParts_end hend, moreParts_end hend]
    exact .ok (lastFolded_concat hname parts)
  | @after t ts τ ht h ih =>
    obtain ⟨m, hm⟩ := Option.isSome_iff_exists.1 ht
    exact .drop [.dot, t] Token.noConfusion (fun more => moreParts_dot hm) (ih (parts ++ [m]) hτ)

/-- A name with dots refers to the same when its last part is spelled differently. -/
theorem sameAt_qualifiedName {ts : List Token} (what : String) (h : NameAt ts (.ident n :: rest)) :
    SameAt n n' rest foldAscii (qualifiedName what) ts := by
  have hparts : SameAt n n' rest lastFolded (nameParts what) ts := by
    rw [nameParts]
    cases h with
    | last hend =>
      refine ⟨[], rfl, ?_⟩
      change LooksAlike _ (moreParts what [n] rest) (moreParts what [n'] rest)
      rw [moreParts_end hend, moreParts_end hend]
      exact .ok (lastFolded_concat hname [])
    | @after t ts τ ht h =>
      obtain ⟨m, hm⟩ := Option.isSome_iff_exists.1 ht
      refine .drop [t] Token.noConfusion (fun more => ?_) (sameAt_moreParts hname what h [m])
      change Except.bind (name what (t :: .dot :: more)) _ = _
      rw [name_eq_ok hm]
      rfl
  exact .bind hparts fun _ _ hsame => .pure hsame

omit hname in
/-- Columns of a list are collected, however those before them are spelled. -/
theorem alike_listColumn {columns columns' : List String}
    (h : foldNames columns = foldNames columns') :
    Alike (stepView foldNames) (listColumn columns) (listColumn columns') := by
  refine .next fun t => ?_
  split
  · exact .next fun _ => .pure (congrArg ForInStep.done h)
  · exact .refl
  · exact .next fun _ => .pure (congrArg ForInStep.yield h)
  · refine .next fun column => .next fun _ => .pure (congrArg ForInStep.yield ?_)
    rw [foldNames, foldNames, List.map_append, List.map_append]
    exact congrArg (· ++ [column].map foldAscii) h

/-- A list looks the same when one of its columns is spelled differently. -/
theorem sameAt_columnList {ts : List Token} (h : ListAt ts (.ident n :: rest)) :
    SameAt n n' rest foldNames columnList ts := by
  have hedge := (plainEdge_of_sameName hname rest).toEdge
  cases h with
  | @column columns ts _ hcomes =>
    -- the column itself is read in the round that begins there
    have hround : SameAt n n' rest (stepView foldNames) (listColumn columns)
        (.ident n :: rest) := by
      refine ⟨[], rfl, ?_⟩
      change LooksAlike _
        ((do skipColumnSuffixes; return .yield (columns ++ [n]) :
          Parser (ForInStep (List String))) rest)
        ((do skipColumnSuffixes; return .yield (columns ++ [n']) :
          Parser (ForInStep (List String))) rest)
      have hyield : stepView foldNames (.yield (columns ++ [n])) =
          stepView foldNames (.yield (columns ++ [n'])) := by
        simp [stepView, foldNames, foldAscii_eq hname]
      exact Alike.next (fun _ => .pure hyield) rest
    rw [columnList]
    refine .after rfl (consumes_expect hedge _ _).toLocal (.bind (.iterate hcomes
      (fun s => (consumes_listColumn hedge s).toLocal) hround fun _ _ hs => alike_listColumn hs)
      fun found found' hfound => ?_)
    have hempty : found.isEmpty = found'.isEmpty := by
      have := congrArg List.isEmpty hfound
      rwa [foldNames, foldNames, List.isEmpty_map, List.isEmpty_map] at this
    rw [hempty]
    exact .ite (fun _ => .next fun _ => .pure hfound) fun _ => .pure hfound

/-- The parenthesis of a list stands before its columns. -/
theorem ListAt.length {ts : List Token} (h : ListAt ts (.ident n :: rest)) :
    rest.length + 2 ≤ ts.length := by
  obtain ⟨before, hts, -⟩ := sameAt_columnList hname h
  have hlength := congrArg List.length hts
  rw [List.length_append, List.length_cons] at hlength
  cases before with
  | nil =>
    cases h
    cases hts
  | cons t before =>
    rw [List.length_cons] at hlength
    omega

-- ---------------------------------------------------------------------------
-- References and constraints
-- ---------------------------------------------------------------------------

/-- A reference looks the same when its table or one of its columns is spelled differently. -/
theorem sameAt_reference {ts : List Token} (h : ReferenceAt ts (.ident n :: rest))
    (columns : List String) (constraint : Option String) :
    SameAt n n' rest PendingForeignKey.folded (reference columns constraint) ts := by
  have hedge := (plainEdge_of_sameName hname rest).toEdge
  -- the name is that of the target, or of one of its columns
  cases h with
  | table h =>
    refine .bind (sameAt_qualifiedName hname _ h) fun table table' htable => ?_
    have hrest (targetColumns : Option (List String)) : Alike PendingForeignKey.folded
        (referenceBehind constraint columns table targetColumns)
        (referenceBehind constraint columns table' targetColumns) := by
      refine .next fun actions => .pure ?_
      simp only [PendingForeignKey.folded, htable]
    exact .next fun t => .ite (fun _ => .next fun _ => hrest _) fun _ => .next fun _ => hrest _
  | @column table _ left _ htable h =>
    refine .after htable (consumes_qualifiedName hedge _).toLocal ?_
    have hlist := h
    cases h with
    | column _ =>
      refine .look Token.noConfusion ?_
      have hcolumns : SameAt n n' rest (Option.map foldNames) (some <$> columnList) _ :=
        .map (sameAt_columnList hname hlist) fun _ _ hfound => congrArg some hfound
      refine .bind hcolumns fun found found' hfound => ?_
      refine .next fun actions => .pure ?_
      simp only [PendingForeignKey.folded, hfound]

omit hname in
/-- What stands before the columns of an index is its name, if there is one. -/
theorem indexBody_head {head : List Token} (hhead : IndexHead head) :
    ∃ indexName, ∀ more, indexBody (head ++ .lparen :: more) = (do
      let columns ← columnList
      return { name := indexName, columns, unique := false } : Parser Index) (.lparen :: more) := by
  -- `USING` is told by its first word, and the method behind it is not kept
  have hmethod {u t : Token} (hu : isWord "USING" u = true) (ht : (nameOf? t).isSome = true)
      {β : Type} (f : Parser β) (more : List Token) :
      (do
        if ← accept (isWord "USING") then discard <| name "index method"
        f) (u :: t :: more) = f more := by
    obtain ⟨m, hm⟩ := Option.isSome_iff_exists.1 ht
    change ((if isWord "USING" u = true then do advance; return true else return false) >>=
      fun using? => if using? = true then discard (name "index method") >>= fun _ => f else f :
        Parser β) (u :: t :: more) = _
    rw [hu]
    change Except.bind (Except.map _ (name "index method" (t :: more))) _ = _
    rw [name_eq_ok hm]
    rfl
  -- a head of an index has a name, a method, both or neither
  cases hhead with
  | none => exact ⟨none, fun more => rfl⟩
  | @name m hm =>
    refine ⟨some m, fun more => ?_⟩
    change (if sameName m "USING" = true then _ else _ : Parser Index) (.ident m :: _) = _
    rw [hm]
    rfl
  | @method u t hu ht =>
    refine ⟨none, fun more => ?_⟩
    cases u with
    | ident w =>
      change (if sameName w "USING" = true then _ else _ : Parser Index) (.ident w :: _) = _
      rw [show sameName w "USING" = true from hu]
      exact hmethod hu ht _ _
    | _ => cases hu
  | @both m u t hm hu ht =>
    refine ⟨some m, fun more => ?_⟩
    change (if sameName m "USING" = true then _ else _ : Parser Index) (.ident m :: _) = _
    rw [hm]
    exact hmethod hu ht _ _

/-- An index looks the same when one of its columns is spelled differently. -/
theorem sameAt_indexBody {head ts : List Token} (hhead : IndexHead head)
    (h : ListAt ts (.ident n :: rest)) : SameAt n n' rest foldIndex indexBody (head ++ ts) := by
  obtain ⟨indexName, hbody⟩ := indexBody_head hhead
  obtain ⟨more, rfl⟩ : ∃ more, ts = .lparen :: more := by
    cases h
    exact ⟨_, rfl⟩
  refine .drop head Token.noConfusion hbody (.bind (sameAt_columnList hname h)
    fun columns columns' hcolumns => .pure ?_)
  simp only [foldIndex, hcolumns]

omit hname in
/-- What stands before the columns of a unique constraint is a name, if there is one. -/
theorem tableConstraint_unique {word label : List Token}
    (hword : word ∈ [[], [.keyword .key], [.keyword .index]]) (hlabel : IndexName label)
    (constraint : Option String) :
    ∃ indexName, ∀ more, tableConstraint constraint
        (.keyword .unique :: (word ++ (label ++ .lparen :: more))) =
      uniqueOf (constraint.or indexName) (.lparen :: more) := by
  -- without a name the second token may be anything, but an identifier is never read
  have hnone (q : Option String → Parser TableConstraint) (more : List Token) :
      (do
        let indexName ← if (← peek 1) == Token.lparen then identifier? else pure none
        q indexName) (.lparen :: more) = q none (.lparen :: more) := by
    change (if front more == .lparen then identifier? >>= q else pure none >>= q :
      Parser TableConstraint) (.lparen :: more) = _
    split <;> rfl
  simp only [List.mem_cons, List.not_mem_nil, or_false] at hword
  obtain rfl | rfl | rfl := hword <;> obtain rfl | ⟨m, rfl⟩ := hlabel
  · exact ⟨none, fun more => hnone _ more⟩
  · exact ⟨some m, fun more => rfl⟩
  · exact ⟨none, fun more => hnone _ more⟩
  · exact ⟨some m, fun more => rfl⟩
  · exact ⟨none, fun more => hnone _ more⟩
  · exact ⟨some m, fun more => rfl⟩

omit hname in
/-- What stands before the columns of a foreign key is a name, if there is one. -/
theorem tableConstraint_foreign {label : List Token} (hlabel : IndexName label)
    (constraint : Option String) :
    ∃ indexName, ∀ more, tableConstraint constraint
        (.keyword .foreign :: .keyword .key :: (label ++ .lparen :: more)) =
      foreignKeyOf (constraint.or indexName) (.lparen :: more) := by
  obtain rfl | ⟨m, rfl⟩ := hlabel
  · exact ⟨none, fun more => rfl⟩
  · exact ⟨some m, fun more => rfl⟩

omit hname in
/-- A reference is read without looking at the columns that it is read for. -/
theorem alike_reference {columns columns' : List String} (h : foldNames columns = foldNames columns')
    (constraint : Option String) : Alike PendingForeignKey.foldedAll (reference columns constraint)
      (reference columns' constraint) := by
  have hrest (table : String) (targetColumns : Option (List String)) :
      Alike PendingForeignKey.foldedAll (referenceBehind constraint columns table targetColumns)
        (referenceBehind constraint columns' table targetColumns) := by
    refine .next fun actions => .pure ?_
    simp only [PendingForeignKey.foldedAll, PendingForeignKey.folded, h]
  exact .next fun table => .next fun t => .ite (fun _ => .next fun _ => hrest table _) fun _ =>
    .next fun _ => hrest table _

/-- A constraint looks the same when one of its columns, or what it refers to, is spelled
differently. -/
theorem sameAt_tableConstraint {ts : List Token} (h : ConstraintAt ts (.ident n :: rest))
    (constraint : Option String) :
    SameAt n n' rest TableConstraint.folded (tableConstraint constraint) ts := by
  have hedge := (plainEdge_of_sameName hname rest).toEdge
  have hopens {ts τ : List Token} (h : ListAt ts τ) : ∃ more, ts = .lparen :: more := by
    cases h
    exact ⟨_, rfl⟩
  -- where the name stands tells which columns it is among
  cases h with
  | primaryKey h =>
    have hread : SameAt n n' rest TableConstraint.folded (do
        return .primaryKey (← columnList)) _ :=
      .map (sameAt_columnList hname h) fun _ _ hcolumns =>
        congrArg TableConstraint.primaryKey hcolumns
    obtain ⟨more, rfl⟩ := hopens h
    exact .drop [.keyword .primary, .keyword .key] Token.noConfusion (fun _ => rfl) hread
  | @unique word label ts _ hword hlabel h =>
    obtain ⟨indexName, hbody⟩ := tableConstraint_unique hword hlabel constraint
    have hread : SameAt n n' rest TableConstraint.folded (uniqueOf (constraint.or indexName)) ts := by
      refine .bind (sameAt_columnList hname h) fun columns columns' hcolumns =>
        .next fun _ => .pure ?_
      simp only [TableConstraint.folded, hcolumns]
    obtain ⟨more, rfl⟩ := hopens h
    have hdrop := hread.drop (.keyword .unique :: (word ++ label)) Token.noConfusion
      (p := tableConstraint constraint) fun more => by
        rw [← hbody, List.cons_append, List.append_assoc]
    rwa [List.cons_append, List.append_assoc] at hdrop
  | @foreignKey label ts _ hlabel h =>
    obtain ⟨indexName, hbody⟩ := tableConstraint_foreign hlabel constraint
    have hread :
        SameAt n n' rest TableConstraint.folded (foreignKeyOf (constraint.or indexName)) ts :=
      .bind (sameAt_columnList hname h) fun columns columns' hcolumns => .next fun _ =>
        .bind (alike_reference hcolumns _) fun _ _ hfk =>
          .pure (congrArg TableConstraint.foreignKey hfk)
    obtain ⟨more, rfl⟩ := hopens h
    exact hread.drop (.keyword .foreign :: .keyword .key :: label) Token.noConfusion hbody
  -- the columns stand before the name, and are read alike on both sides
  | @references columns label ts _ _ hlabel hcolumns h =>
    obtain ⟨indexName, hbody⟩ := tableConstraint_foreign hlabel constraint
    have hread :
        SameAt n n' rest TableConstraint.folded (foreignKeyOf (constraint.or indexName)) ts := by
      refine .after hcolumns (consumes_columnList hedge).toLocal
        (.after rfl (consumes_expect hedge _ _).toLocal
          (.map (sameAt_reference hname h columns _) fun fk fk' hfk => ?_))
      exact congrArg (fun fk : PendingForeignKey =>
        TableConstraint.foreignKey { fk with columns := foldNames fk.columns }) hfk
    obtain ⟨more, rfl⟩ : ∃ more, ts = .lparen :: more := by
      obtain ⟨_, _, hopen, -⟩ := bind_eq_ok hcolumns
      have hfront := front_of_expect hopen
      cases ts with
      | nil => cases hfront
      | cons t more => exact ⟨more, congrArg (· :: more) hfront⟩
    exact hread.drop (.keyword .foreign :: .keyword .key :: label) Token.noConfusion hbody
  -- an index holds the name among its own columns
  | @index k head ts _ hk hhead h =>
    have hindex (k : Keyword) : SameAt n n' rest TableConstraint.folded (do
        advance
        return .index (← indexBody)) (.keyword k :: (head ++ ts)) :=
      .after rfl (consumes_advance hedge).toLocal (.map (sameAt_indexBody hname hhead h)
        fun _ _ hi => congrArg TableConstraint.index hi)
    obtain rfl | rfl := hk
    · exact .look Token.noConfusion (hindex _)
    · exact .look Token.noConfusion (hindex _)

-- ---------------------------------------------------------------------------
-- Columns and tables
-- ---------------------------------------------------------------------------

/-- A column looks the same when what it refers to is spelled differently. -/
theorem sameAt_column {dialect : Dialect} {table : String} {ts : List Token}
    (h : ColumnAt dialect table ts (.ident n :: rest)) :
    SameAt n n' rest ColumnDefinition.folded (column dialect table) ts := by
  have hedge := plainEdge_of_sameName hname rest
  cases h with
  | @reference columnName written d _ left left' more _ hread htype hclauses h =>
    have hclause : SameAt n n' rest (stepView ColumnDraft.folded) (columnClause d)
        (.keyword .references :: more) := by
      have hread : SameAt n n' rest ColumnDraft.folded (keywordClause d .references) more :=
        .map (g := fun fk => { d with foreignKey := some fk }) (sameAt_reference hname h _ _)
          fun _ _ hfk => congrArg (fun fk => ({ d with foreignKey := some fk } : ColumnDraft)) hfk
      exact .look Token.noConfusion (.after rfl (consumes_advance hedge.toEdge).toLocal
        (.bind hread fun _ _ hd => .pure (congrArg ForInStep.yield hd)))
    rw [column]
    refine .after hread (consumes_name hedge.toEdge _).toLocal
      (.after htype (consumes_writtenType hedge.toEdge _).toLocal
        (.bind (.iterate hclauses (fun d => local_columnClause hedge.toEdge d fun _ => hedge.reference)
          hclause fun _ _ hd => alike_columnClause_folded hd) fun d d' hd => .pure ?_))
    -- the column is that of its draft, with the reference that was read
    exact congrArg (fun d : ColumnDraft => ({
      column := d.column
      foreignKey := d.foreignKey
      inlineEnum := written.inlineEnum? table columnName } : ColumnDefinition)) hd

/-- Two tokens at least stand before a reference of a column. -/
theorem ColumnAt.length {dialect : Dialect} {table : String} {ts : List Token}
    (h : ColumnAt dialect table ts (.ident n :: rest)) : rest.length + 3 ≤ ts.length := by
  have hedge := plainEdge_of_sameName hname rest
  cases h with
  | @reference columnName written d _ left left' more _ hread htype hclauses h =>
    have hname' := (consumes_name (Q := True) hedge.toEdge _).eager hread
    have htype' := (consumes_writtenType (Q := True) hedge.toEdge _).eager htype
    have hclauses' := (hclauses.suffix fun d =>
      local_columnClause (Q := True) hedge.toEdge d fun _ => hedge.reference).length_le
    obtain ⟨before, rfl, -⟩ := sameAt_reference hname h [] none
    simp only [List.length_cons, List.length_append] at hclauses'
    omega

omit hname in
/-- What begins a column is read as one. -/
theorem tableElement_column {dialect : Dialect} {table : String} {ts : List Token}
    (hbegins : beginsColumn ts = true) (d : TableDraft) : tableElement dialect table d ts =
      (do return .yield (← d.addColumn (← column dialect table)) :
        Parser (ForInStep TableDraft)) ts := by
  cases ts with
  | nil => cases hbegins
  | cons t ts =>
    have hother (hnot : isOneOf skippedElements t = false) (f : Parser (ForInStep TableDraft)) :
        (if isOneOf skippedElements t then do skipElement; return .yield d else f) = f :=
      if_neg (by rw [hnot]; exact Bool.false_ne_true)
    -- no word of a constraint begins a column, nor does an index
    cases t with
    | rparen | comma | eof => cases hbegins
    | keyword k =>
      cases k with
      | constraint | primary | unique | foreign | check => cases hbegins
      | index | key =>
        have hindex : beginsIndex ts = false := by simpa [beginsColumn, front] using hbegins
        change (if beginsIndex ts = true then _ else _ : Parser (ForInStep TableDraft)) (_ :: ts) = _
        rw [hindex]
        rfl
      | _ => rfl
    | _ => exact congrFun (hother (by simpa [beginsColumn, front] using hbegins) _) _

/-- Whether an element is a column is decided by two tokens, and the name comes later. -/
theorem beginsColumn_moves {before : List Token} (t u : Token) :
    beginsColumn (t :: u :: before ++ .ident n' :: rest) =
      beginsColumn (t :: u :: before ++ .ident n :: rest) := by
  have hindex := beginsIndex_moves (plainEdge_of_sameName hname rest) u before
  cases t with
  | keyword k => exact congrArg (fun index => ite _ (!index) _) hindex
  | _ => rfl

/-- An element of a table looks the same when a name that it refers to is spelled differently. -/
theorem sameAt_tableElement {dialect : Dialect} {table : String} {ts : List Token}
    (h : ElementAt dialect table ts (.ident n :: rest)) (d : TableDraft) :
    SameAt n n' rest (stepView TableDraft.folded) (tableElement dialect table d) ts := by
  have hedge := plainEdge_of_sameName hname rest
  have hadd {c c' : TableConstraint} (hc : c.folded = c'.folded) :
      stepView TableDraft.folded (.yield (d.addConstraint c)) =
        stepView TableDraft.folded (.yield (d.addConstraint c')) :=
    congrArg ForInStep.yield (TableDraft.folded_addConstraint rfl hc)
  cases h with
  | @named t ts _ ht h =>
    obtain ⟨m, hm⟩ := Option.isSome_iff_exists.1 ht
    exact .look Token.noConfusion (.after rfl (consumes_advance hedge.toEdge).toLocal
      (.after (name_eq_ok hm) (consumes_name hedge.toEdge _).toLocal
        (.map (sameAt_tableConstraint hname h _) fun _ _ hc => hadd hc)))
  | @constraint k ts _ hk h =>
    have hread : SameAt n n' rest (stepView TableDraft.folded) (do
        return .yield (d.addConstraint (← tableConstraint none))) (.keyword k :: ts) :=
      .map (sameAt_tableConstraint hname h none) fun _ _ hc => hadd hc
    simp only [List.mem_cons, List.not_mem_nil, or_false] at hk
    obtain rfl | rfl | rfl := hk
    · exact .look Token.noConfusion hread
    · exact .look Token.noConfusion hread
    · exact .look Token.noConfusion hread
  | @index k head ts _ hk hbegins hhead h =>
    have hread : SameAt n n' rest (stepView TableDraft.folded) (do
        advance
        return .yield (d.addConstraint (.index (← indexBody)))) (.keyword k :: (head ++ ts)) :=
      .after rfl (consumes_advance hedge.toEdge).toLocal
        (.map (sameAt_indexBody hname hhead h) fun i i' hi => hadd
          (show (TableConstraint.index i).folded = (TableConstraint.index i').folded from
            congrArg TableConstraint.index hi))
    obtain ⟨before, hts, hsame⟩ := hread
    -- the parenthesis of the list stands before the name
    have hlength := congrArg List.length hts
    have hlist := h.length hname
    simp only [List.length_cons, List.length_append] at hlength
    match before with
    | [] | [_] => simp only [List.length_nil, List.length_cons] at hlength; omega
    | t :: u :: before =>
      obtain ⟨rfl, hrest⟩ := List.cons.inj hts
      change head ++ ts = u :: before ++ .ident n :: rest at hrest
      refine ⟨.keyword k :: u :: before, hts, ?_⟩
      have hbegins' : beginsIndex (u :: before ++ .ident n' :: rest) = true := by
        rw [beginsIndex_moves hedge, ← hrest]
        exact hbegins
      have hstep (σ : List Token) (hσ : beginsIndex σ = true) :
          tableElement dialect table d (.keyword k :: σ) = (do
            advance
            return .yield (d.addConstraint (.index (← indexBody))) :
              Parser (ForInStep TableDraft)) (.keyword k :: σ) := by
        obtain rfl | rfl := hk
        all_goals
          change (if beginsIndex σ = true then _ else _ : Parser (ForInStep TableDraft)) _ = _
          rw [hσ]
          rfl
      rw [hstep _ hbegins]
      exact hstep _ hbegins' ▸ hsame
  | column hbegins h =>
    have hread : SameAt n n' rest (stepView TableDraft.folded) (do
        return .yield (← d.addColumn (← column dialect table))) ts := by
      refine .bind (sameAt_column hname h) fun c c' hc => .bind (.lift ?_)
        fun _ _ hd => .pure (congrArg ForInStep.yield hd)
      rw [← TableDraft.addColumn_folded, hc, TableDraft.addColumn_folded]
    obtain ⟨before, rfl, hsame⟩ := hread
    have hlength := h.length hname
    simp only [List.length_cons, List.length_append] at hlength
    match before with
    | [] | [_] => simp only [List.length_nil, List.length_cons] at hlength; omega
    | t :: u :: before =>
      refine ⟨t :: u :: before, rfl, ?_⟩
      rw [tableElement_column hbegins,
        tableElement_column ((beginsColumn_moves hname t u).trans hbegins)]
      exact hsame

end

end CrudGen.Sql.Parser
