import CrudGen.Proofs.Catalog.Quoted
import CrudGen.Proofs.Sql.Composition
import CrudGen.Proofs.Sql.Parts
import CrudGen.Proofs.Sql.References

/-!
# Tables — columns and constraints in any order

Columns and constraints may stand between each other in a table. Constraints are looked at when every
column is known, so a table means the same however the two are interleaved.

A constraint that begins with `KEY` or `INDEX` is told from a column of that name by the three tokens
behind (`beginsIndex`). They tell it if the columns of the index are identifiers, unless it has a
method and no name.

Main result:

* `parse_interleaved` — all interleavings of columns and constraints are refused, or all are read as
  the same definition.
-/

namespace CrudGen

/-- A list is made of two others, each in its order. -/
inductive Interleave {α : Type} : List α → List α → List α → Prop
  | nil : Interleave [] [] []
  | left {a : α} {as bs cs : List α} (h : Interleave as bs cs) : Interleave (a :: as) bs (a :: cs)
  | right {b : α} {as bs cs : List α} (h : Interleave as bs cs) : Interleave as (b :: bs) (b :: cs)

namespace Interleave

variable {α β : Type}

/-- What is made of images is the image of what is made. -/
theorem exists_of_map {f : α → β} {as bs : List α} {cs : List β}
    (h : Interleave (as.map f) (bs.map f) cs) : ∃ ds, cs = ds.map f ∧ Interleave as bs ds := by
  generalize has : as.map f = as', hbs : bs.map f = bs' at h
  induction h generalizing as bs with
  | nil =>
    rw [List.map_eq_nil_iff.1 has, List.map_eq_nil_iff.1 hbs]
    exact ⟨[], rfl, .nil⟩
  | left _ ih =>
    obtain ⟨a, rest, rfl, rfl, hrest⟩ := List.map_eq_cons_iff.1 has
    obtain ⟨ds, rfl, hds⟩ := ih hrest hbs
    exact ⟨a :: ds, rfl, .left hds⟩
  | right _ ih =>
    obtain ⟨b, rest, rfl, rfl, hrest⟩ := List.map_eq_cons_iff.1 hbs
    obtain ⟨ds, rfl, hds⟩ := ih has hrest
    exact ⟨b :: ds, rfl, .right hds⟩

/-- What is found only in the first list is found in its order. -/
theorem filterMap_left {f : α → Option β} {as bs cs : List α} (h : Interleave as bs cs)
    (hbs : ∀ b ∈ bs, f b = none) : cs.filterMap f = as.filterMap f := by
  induction h with
  | nil => rfl
  | left _ ih => rw [List.filterMap_cons, List.filterMap_cons, ih hbs]
  | right _ ih =>
    rw [List.forall_mem_cons] at hbs
    rw [List.filterMap_cons, hbs.1, ih hbs.2]

/-- What is made of each element is interleaved as the elements are. -/
theorem flatMap {f : α → List β} {as bs cs : List α} (h : Interleave as bs cs) :
    Interleave (as.flatMap f) (bs.flatMap f) (cs.flatMap f) := by
  have hleft (xs : List β) {as bs cs : List β} (h : Interleave as bs cs) :
      Interleave (xs ++ as) bs (xs ++ cs) := by
    induction xs with
    | nil => exact h
    | cons x rest ih => exact .left ih
  have hright (xs : List β) {as bs cs : List β} (h : Interleave as bs cs) :
      Interleave as (xs ++ bs) (xs ++ cs) := by
    induction xs with
    | nil => exact h
    | cons x rest ih => exact .right ih
  induction h with
  | nil => exact .nil
  | @left a _ _ _ _ ih => exact hleft (f a) ih
  | @right b _ _ _ _ ih => exact hright (f b) ih

/-- One list may stand behind the other. -/
theorem append (as bs : List α) : Interleave as bs (as ++ bs) := by
  induction as with
  | cons a rest ih => exact .left ih
  | nil =>
    induction bs with
    | nil => exact .nil
    | cons b rest ih => exact .right ih

theorem symm {as bs cs : List α} (h : Interleave as bs cs) : Interleave bs as cs := by
  induction h with
  | nil => exact .nil
  | left _ ih => exact .right ih
  | right _ ih => exact .left ih

end Interleave

namespace Sql.Parser

variable {dialect : Dialect} {table : String} {ts rest : List Token} {t : Token}
  {k : TableConstraint}

-- ---------------------------------------------------------------------------
-- Columns
-- ---------------------------------------------------------------------------

/-- A column as it stands between the commas of a table: it begins with an identifier that is none of
the words which begin an element of another kind, and is read to its end. -/
structure ColumnText (dialect : Dialect) (table : String) where
  tokens : List Token
  definition : ColumnDefinition
  named : ∃ n, front tokens = Token.ident n ∧ isOneOf skippedElements (Token.ident n) = false
  reads : column dialect table (tokens ++ [Token.rparen]) = .ok (definition, [Token.rparen])

namespace ColumnText

variable (x : ColumnText dialect table)

theorem kind : elementKind x.tokens = .column := by
  obtain ⟨n, hn, hother⟩ := x.named
  obtain ⟨more, hmore⟩ := cons_of_front hn Token.noConfusion
  have hkind : elementKind (.ident n :: more) =
      if isOneOf skippedElements (.ident n) then .skipped else .column := rfl
  rw [hmore, hkind, hother]
  rfl

def element : Element dialect table where
  tokens := x.tokens
  entries := [.column x.definition]
  reads := by
    have hne : x.tokens ≠ [] := by
      intro hnil
      have hkind := x.kind
      rw [hnil] at hkind
      cases hkind
    refine .cons (entry_column_iff.2 ⟨?_, x.reads⟩) (.nil _)
    rw [elementKind_append hne, x.kind]

end ColumnText

-- ---------------------------------------------------------------------------
-- Constraints
-- ---------------------------------------------------------------------------

/-- A constraint as it stands between the commas of a table, with or without a name of its own, and
read to its end. An index has identifiers for its columns, and a name if it has a method. -/
inductive ConstraintReads : List Token → TableConstraint → Prop
  | named {t : Token} {n : String} {ts : List Token} {k : TableConstraint} (ht : nameOf? t = some n)
      (h : tableConstraint (some n) (ts ++ [Token.rparen]) = .ok (k, [Token.rparen])) :
      ConstraintReads (Token.keyword .constraint :: t :: ts) k
  | word {w : Keyword} {ts : List Token} {k : TableConstraint}
      (hw : w ∈ [Keyword.primary, .unique, .foreign, .check])
      (h : tableConstraint none (Token.keyword w :: (ts ++ [Token.rparen])) =
        .ok (k, [Token.rparen])) :
      ConstraintReads (Token.keyword w :: ts) k
  | index {w : Keyword} {head ts : List Token} {n : String} {k : TableConstraint}
      (hw : w ∈ [Keyword.key, .index]) (hhead : IndexHead head)
      (hname : isWord "USING" (front head) = false)
      (h : tableConstraint none (Token.keyword w ::
        (head ++ Token.lparen :: Token.ident n :: (ts ++ [Token.rparen]))) =
        .ok (k, [Token.rparen])) :
      ConstraintReads (Token.keyword w :: (head ++ Token.lparen :: Token.ident n :: ts)) k

/-- The tokens behind `KEY` or `INDEX` tell that an index begins. -/
theorem beginsIndex_head {head : List Token} (h : IndexHead head)
    (hname : isWord "USING" (front head) = false) (n : String) (ts : List Token) :
    beginsIndex (head ++ .lparen :: .ident n :: ts) = true := by
  cases h with
  | none | name => rfl
  | @method u t hu =>
    have hother : isWord "USING" u = false := hname
    rw [hu] at hother
    cases hother
  | @both m u t hn hu =>
    have hindex : beginsIndex (.ident m :: u :: t :: .lparen :: .ident n :: ts) = true := by
      rw [beginsIndex_eq]
      simp [front, isIdent, hu]
    exact hindex

/-- Among the elements of a table a constraint is read as such. -/
theorem ConstraintReads.entry (h : ConstraintReads ts k) :
    entry dialect table (ts ++ [Token.rparen]) = .ok (.constraint k, [Token.rparen]) := by
  have hmade {constraint : Option String} {ts : List Token}
      (h : tableConstraint constraint ts = .ok (k, [Token.rparen])) :
      (do return .constraint (← tableConstraint constraint) : Parser Entry) ts =
        .ok (.constraint k, [Token.rparen]) := by
    rw [bind_of_ok h]
    rfl
  -- with a name in front, by its word, or as an index whose head the look ahead accepts
  cases h with
  | @named t n ts _ ht hread =>
    have hname : name "constraint name" (t :: (ts ++ [Token.rparen])) =
        .ok (n, ts ++ [Token.rparen]) :=
      name_eq_ok ht
    change (name "constraint name" >>= fun n => (do
      return .constraint (← tableConstraint (some n)) : Parser Entry))
        (t :: (ts ++ [Token.rparen])) = _
    rw [bind_of_ok hname]
    exact hmade hread
  | @word w ts _ hw hread =>
    simp only [List.mem_cons, List.not_mem_nil, or_false] at hw
    rcases hw with rfl | rfl | rfl | rfl <;> exact hmade hread
  | @index w head ts n _ hw hhead hname hread =>
    have hbegins := beginsIndex_head hhead hname n (ts ++ [Token.rparen])
    generalize htokens :
      head ++ Token.lparen :: Token.ident n :: (ts ++ [Token.rparen]) = tokens at hbegins hread
    have hindex (hfrom : tableConstraint none (Token.keyword w :: tokens) =
        (do return .index (← indexBody) : Parser TableConstraint) tokens) :
        keyOrColumn dialect table (Token.keyword w :: tokens) =
          .ok (.constraint k, [Token.rparen]) := by
      rw [hfrom] at hread
      obtain ⟨i, left, hi, hmade⟩ := bind_eq_ok hread
      cases hmade
      change (ite (beginsIndex tokens = true) _ _ : Parser Entry) (Token.keyword w :: tokens) = _
      rw [if_pos hbegins]
      change (indexBody >>= fun i => (return .constraint (.index i) : Parser Entry)) tokens = _
      rw [bind_of_ok hi]
      rfl
    have htext : Token.keyword w :: (head ++ Token.lparen :: Token.ident n :: ts) ++ [Token.rparen] =
        Token.keyword w :: tokens := by
      rw [← htokens]
      simp
    rw [htext]
    simp only [List.mem_cons, List.not_mem_nil, or_false] at hw
    rcases hw with rfl | rfl <;> exact hindex rfl

/-- A constraint as it stands between the commas of a table, with what it says. -/
structure ConstraintText where
  tokens : List Token
  constraint : TableConstraint
  reads : ConstraintReads tokens constraint

def ConstraintText.element (x : ConstraintText) : Element dialect table where
  tokens := x.tokens
  entries := [.constraint x.constraint]
  reads := .cons x.reads.entry (.nil _)

-- ---------------------------------------------------------------------------
-- Primary keys
-- ---------------------------------------------------------------------------

/-- A list of columns has one. -/
theorem yields_columnList : Yields columnList (· ≠ []) := by
  rw [columnList]
  refine .next fun _ => .next fun columns =>
    .ite (fun _ => .bind .throw (P := fun _ => False) fun _ => False.elim) fun hne => .pure ?_
  simpa using hne

/-- A constraint that is no key declares its columns. -/
theorem filled_of_no_key (h : k.key? = none) : k.Filled := by
  intro key hkey
  rw [h] at hkey
  cases hkey

/-- A primary key that is read has columns. -/
theorem filled_constraintFrom (constraint : Option String) (t : Token) :
    Yields (constraintFrom constraint t) TableConstraint.Filled := by
  have hunique (indexName : Option String) :
      Yields (uniqueOf (constraint.or indexName)) TableConstraint.Filled :=
    .next fun _ => .next fun _ => .pure (filled_of_no_key rfl)
  -- what is no word of a constraint is skipped or refused
  have hword (ht : ∀ k, t ≠ .keyword k) :
      Yields (constraintFrom constraint t) TableConstraint.Filled := by
    rw [constraintFrom_word ht]
    exact .ite (fun _ => .next fun _ => .pure (filled_of_no_key rfl)) fun _ => .refuse
  cases t with
  | keyword k =>
    -- a key has at least one column, and the others are none
    cases k <;> simp only [constraintFrom]
    case primary =>
      refine .next fun _ => .next fun _ => .bind yields_columnList fun columns hne => .pure ?_
      rintro _ ⟨⟩
      exact hne
    case unique =>
      exact .next fun _ => .next fun _ => .next fun _ =>
        .ite (fun _ => .next fun _ => hunique _) fun _ => .next fun _ => hunique _
    case foreign =>
      exact .next fun _ => .next fun _ => .next fun _ => .next fun _ => .next fun _ => .next fun _ =>
        .pure (filled_of_no_key rfl)
    case check => exact .next fun _ => .next fun _ => .next fun _ => .pure (filled_of_no_key rfl)
    case index | key => exact .next fun _ => .next fun _ => .pure (filled_of_no_key rfl)
    all_goals exact .refuse
  | _ => exact hword fun _ => Token.noConfusion

/-- A constraint that is read declares its columns. -/
theorem ConstraintReads.filled (h : ConstraintReads ts k) : k.Filled := by
  have hread {constraint : Option String} {ts rest : List Token}
      (h : tableConstraint constraint ts = .ok (k, rest)) : k.Filled := by
    rw [tableConstraint] at h
    exact Yields.next (filled_constraintFrom constraint) _ _ _ h
  cases h with
  | named _ h => exact hread h
  | word _ h => exact hread h
  | index _ _ _ h => exact hread h

/-- Among the entries of an element, no primary key is without columns. -/
theorem Entries.filled {es : List Entry} (h : Entries dialect table ts es rest) :
    ∀ k ∈ constraintsOf es, k.Filled := by
  have hone {k : TableConstraint} (hk : k.Filled) :
      ∀ k' ∈ constraintsOf [.constraint k], k'.Filled := by
    simpa [constraintsOf] using hk
  -- an entry is a constraint with columns, or none
  have hentry : Yields (entry dialect table) fun e => ∀ k ∈ constraintsOf [e], k.Filled := by
    have hnone {e : Entry} (he : constraintsOf [e] = []) : ∀ k ∈ constraintsOf [e], k.Filled := by
      simp [he]
    refine .next fun t => yields_entryFrom ?_ (fun n => ?_) ?_ (hnone rfl) t
    · exact Yields.trivial.imp fun _ _ => hnone rfl
    · rw [tableConstraint]
      exact .next fun t => (filled_constraintFrom n t).imp fun _ hk => hone hk
    · exact Yields.trivial.imp fun _ _ => hone (filled_of_no_key rfl)
  induction h with
  | nil => simp [constraintsOf]
  | @cons e es _ _ _ hfirst _ ih =>
    have hsplit : constraintsOf (e :: es) = constraintsOf [e] ++ constraintsOf es :=
      List.filterMap_append (l := [e])
    rw [hsplit]
    exact List.forall_mem_append.2 ⟨hentry _ _ _ hfirst, ih⟩

-- ---------------------------------------------------------------------------
-- Interleavings
-- ---------------------------------------------------------------------------

/-- A draft with more constraints. -/
def TableDraft.withConstraints (d : TableDraft) (ks : List TableConstraint) : TableDraft :=
  { d with constraints := d.constraints ++ ks }

/-- A column is added beside constraints. -/
theorem addColumn_withConstraints (d : TableDraft) (ks : List TableConstraint) (c : ColumnDefinition) :
    (d.withConstraints ks).addColumn c = (d.addColumn c).map (·.withConstraints ks) := by
  unfold TableDraft.addColumn TableDraft.withConstraints
  split <;> rfl

theorem foldlM_addColumn_withConstraints (d : TableDraft) (ks : List TableConstraint)
    (cs : List ColumnDefinition) : cs.foldlM TableDraft.addColumn (d.withConstraints ks) =
      (cs.foldlM TableDraft.addColumn d).map (·.withConstraints ks) := by
  induction cs generalizing d with
  | nil => rfl
  | cons c rest ih =>
    rw [List.foldlM_cons, List.foldlM_cons, addColumn_withConstraints]
    cases d.addColumn c with
    | error e => rfl
    | ok d' => exact ih d'

/-- Constraints are added in two parts. -/
theorem map_withConstraints (r : Except SyntaxError TableDraft) (ks ks' : List TableConstraint) :
    (r.map (·.withConstraints ks)).map (·.withConstraints ks') =
      r.map (·.withConstraints (ks ++ ks')) := by
  cases r with
  | error e => rfl
  | ok d => simp [Except.map, TableDraft.withConstraints]

/-- Entries are entered as their columns are, and the constraints come behind. -/
theorem foldlM_enter_eq (d : TableDraft) (es : List Entry) : es.foldlM TableDraft.enter d =
    ((columnsOf es).foldlM TableDraft.addColumn d).map (·.withConstraints (constraintsOf es)) := by
  induction es generalizing d with
  | nil => simp [columnsOf, constraintsOf, TableDraft.withConstraints, Except.map, pure, Except.pure]
  | cons e rest ih =>
    rw [List.foldlM_cons]
    cases e with
    | column c =>
      change (d.addColumn c >>= fun d => rest.foldlM TableDraft.enter d) =
        ((c :: columnsOf rest).foldlM TableDraft.addColumn d).map _
      rw [List.foldlM_cons]
      cases d.addColumn c with
      | error e => rfl
      | ok d' => exact ih d'
    | constraint k =>
      change rest.foldlM TableDraft.enter (d.withConstraints [k]) = _
      rw [ih, foldlM_addColumn_withConstraints]
      exact map_withConstraints _ [k] (constraintsOf rest)
    | skipped => exact ih d

/-- What entries make up depends on their columns and constraints, not on how these are interleaved. -/
theorem TableText.definition_congr {es es' : List Entry} (x : TableText dialect)
    (hcolumns : columnsOf es = columnsOf es') (hconstraints : constraintsOf es = constraintsOf es') :
    x.definition es = x.definition es' := by
  rw [TableText.definition, TableText.definition, foldlM_enter_eq, foldlM_enter_eq, hcolumns,
    hconstraints]

/-- The entries of interleaved columns and constraints. -/
theorem entries_interleaved {columns : List ColumnDefinition} {constraints : List TableConstraint}
    {es : List Entry} (h : Interleave (columns.map .column) (constraints.map .constraint) es) :
    columnsOf es = columns ∧ constraintsOf es = constraints := by
  constructor
  · rw [columnsOf, h.filterMap_left, List.filterMap_map]
    · exact List.filterMap_some
    · rw [List.forall_mem_map]
      exact fun _ _ => rfl
  · rw [constraintsOf, h.symm.filterMap_left, List.filterMap_map]
    · exact List.filterMap_some
    · rw [List.forall_mem_map]
      exact fun _ _ => rfl

/-- **Interleaving.** However columns and constraints are interleaved, their table is read with the
same outcome. If it is a definition, the columns stand in their order, and the constraints in theirs,
with the columns they name as declared; references of columns come first. -/
theorem parse_interleaved (x : TableText dialect) (columns : List (ColumnText dialect x.table))
    (constraints : List ConstraintText) : ∃ outcome : Except SyntaxError Statement,
      (∀ runs, Interleave (columns.map (·.tokens)) (constraints.map (·.tokens)) runs →
        Statement.parse dialect (x.tokensWith runs) = outcome) ∧
      ((∃ e, outcome = .error e) ∨ ∃ ks, List.Forall₂
        (TableConstraint.DeclaredIn (tableOf x.table (columns.map (·.definition.column)) []))
          (constraints.map (·.constraint)) ks ∧
        outcome = .ok (.createTable {
          table := markPrimaryKey (tableOf x.table (columns.map (·.definition.column)) ks)
          foreignKeys := columns.flatMap (·.definition.foreignKey.toList) ++
            ks.filterMap (·.reference?)
          inlineEnums := columns.flatMap (·.definition.inlineEnum.toList)
          ifNotExists := x.ifNotExists })) := by
  let cs : List (Element dialect x.table) := columns.map (·.element)
  let ks : List (Element dialect x.table) := constraints.map (·.element)
  have hcs : cs.map (·.tokens) = columns.map (·.tokens) := List.map_map
  have hks : ks.map (·.tokens) = constraints.map (·.tokens) := List.map_map
  -- the columns in their order and the constraints in theirs, whatever the interleaving
  have hentries {elements : List (Element dialect x.table)} (h : Interleave cs ks elements) :
      columnsOf (elements.flatMap (·.entries)) = columns.map (·.definition) ∧
        constraintsOf (elements.flatMap (·.entries)) = constraints.map (·.constraint) := by
    have hboth := h.flatMap (f := (·.entries))
    refine entries_interleaved ?_
    rw [List.map_map, List.map_map]
    have hcs : cs.flatMap (·.entries) = columns.map (.column ∘ (·.definition)) := by
      rw [List.flatMap_map]
      exact List.flatMap_pure_eq_map _ _
    have hks : ks.flatMap (·.entries) = constraints.map (.constraint ∘ (·.constraint)) := by
      rw [List.flatMap_map]
      exact List.flatMap_pure_eq_map _ _
    rwa [hcs, hks] at hboth
  -- one order of the elements stands for all, so it gives the outcome
  obtain ⟨hcolumns, hconstraints⟩ := hentries (.append cs ks)
  generalize (cs ++ ks).flatMap (·.entries) = es at hcolumns hconstraints
  refine ⟨(x.definition es).map .createTable, fun runs hruns => ?_, ?_⟩
  · rw [← hcs, ← hks] at hruns
    obtain ⟨elements, rfl, helements⟩ := hruns.exists_of_map
    obtain ⟨hcolumns', hconstraints'⟩ := hentries helements
    rw [parse_tableText, x.definition_congr (hcolumns'.trans hcolumns.symm)
      (hconstraints'.trans hconstraints.symm)]
  · cases hdefinition : x.definition es with
    | error e => exact .inl ⟨e, rfl⟩
    | ok d =>
      -- the table is made of the columns first, then of the constraints as declared
      right
      obtain ⟨draft, hdraft, hmade⟩ := ok_of_bind hdefinition
      obtain ⟨-, rfl⟩ := foldlM_enter_empty_iff.1 hdraft
      have hfilled : ∀ k ∈ constraintsOf es, k.Filled := by
        rw [hconstraints, List.forall_mem_map]
        exact fun k _ => k.reads.filled
      obtain ⟨-, made, hdeclared, -, rfl⟩ :=
        (definition_iff (d := TableDraft.withEntries {} es) hfilled).1 hmade
      simp only [TableDraft.withEntries, hcolumns, hconstraints, List.nil_append, List.map_map,
        List.flatMap_map] at hdeclared ⊢
      exact ⟨made, hdeclared, rfl⟩

/-- A column behind the key that names it. -/
theorem parse_interleaved_of_key :
    let column : List Token := [.ident "a", .ident "INT"]
    let key : List Token := [.keyword .primary, .keyword .key, .lparen, .ident "a", .rparen]
    ∃ x : TableText .generic, Interleave [column] [key] [key, column] ∧
      Statement.parse .generic (x.tokensWith [key, column]) =
        Statement.parse .generic (x.tokensWith [column, key]) ∧
      (Statement.parse .generic (x.tokensWith [key, column])).isOk := by
  intro column key
  let a : Column := { name := "a", declaredType := "INT", dataType := .integer }
  let x : TableText .generic := ⟨tableHead "t", "t", false, opens_tableHead .generic "t", [], []⟩
  have hcolumn : Parser.column .generic "t" (column ++ [.rparen]) =
      .ok ({ column := a, foreignKey := none, inlineEnum := none }, [.rparen]) := by
    decide +kernel
  have hkey : ConstraintReads key (.primaryKey ["a"]) := .word (by decide) (by decide +kernel)
  obtain ⟨outcome, hall, -⟩ := parse_interleaved x
    [⟨column, _, ⟨"a", rfl, by decide +kernel⟩, hcolumn⟩] [⟨key, _, hkey⟩]
  have hlast : Interleave [column] [key] [key, column] := .right (.left .nil)
  exact ⟨x, hlast, (hall _ hlast).trans (hall _ (.left (.right .nil))).symm, by decide +kernel⟩

/-- An index with a method and no name is taken for a column, which stands where it stands. -/
theorem columns_of_index_method :
    let table (elements : List (List Token)) : List Token :=
      tableHead "t" ++ .lparen :: (commaSeparated elements ++ [.rparen])
    let column : List Token := [.ident "a", .ident "INT"]
    let index : List Token :=
      [.keyword .key, .ident "USING", .ident "BTREE", .lparen, .ident "a", .rparen]
    let columns (ts : List Token) : Option (List String) :=
      (Statement.parse .generic ts).toOption.map fun
        | .createTable d => d.table.columnNames
        | _ => []
    tableConstraint none (index ++ [.rparen]) =
        .ok (.index { name := none, columns := ["a"], unique := false }, [.rparen]) ∧
      columns (table [column, index]) = some ["a", "key"] ∧
      columns (table [index, column]) = some ["key", "a"] := by
  decide +kernel

end Sql.Parser

end CrudGen
