import CrudGen.Proofs.Catalog.Table
import CrudGen.Proofs.Sql.Alike
import CrudGen.Proofs.Sql.Yields
import CrudGen.Sql.Parser.Column

/-!
# Columns — what their clauses say

A clause is read in the same way whatever the clauses before it have said; only the name of the
column has to be known, as its references stand in there. So a clause says something by itself, and
a column is what its clauses make of its name and type, one after the other.

Main results:

* `columnClause_eq` — reading a clause is reading what it says, and applying that.
* `alike_columnClause`, `yields_columnClause` — what every clause keeps, reading one keeps.
-/

namespace CrudGen.Sql.Parser

/-- What a clause of a column says. -/
inductive Clause where
  | primaryKey
  | required
  | optional
  | unique
  | default (expression : String)
  | reference (fk : PendingForeignKey)
  | comment (text : String)
  | counter
  /-- A clause that says nothing about the column. -/
  | skipped
  deriving DecidableEq, Repr, Inhabited

namespace Clause

/-- What a clause makes of its column. -/
def change : Clause → Column → Column
  | .primaryKey, c => { c with primaryKey := true, nullable := false }
  | .required, c => { c with nullable := false }
  | .optional, c => { c with nullable := true }
  | .unique, c => { c with unique := true }
  | .default expression, c =>
    { c with
      default := some expression
      autoIncrement := c.autoIncrement || drawsFromSequence expression }
  | .comment text, c => { c with comment := some text }
  | .counter, c => { c with autoIncrement := true }
  | .reference _, c | .skipped, c => c

/-- The reference that a clause notes. -/
def reference? : Clause → Option PendingForeignKey
  | .reference fk => some fk
  | _ => none

/-- The draft of a column after one more clause. -/
def apply (d : ColumnDraft) (c : Clause) : ColumnDraft where
  column := c.change d.column
  foreignKey := c.reference?.or d.foreignKey

/-- No clause changes the name of its column or the type. -/
theorem signature_change (c : Clause) (column : Column) :
    (c.change column).signature = column.signature := by
  cases c <;> rfl

end Clause

/-- Reads what a clause of column `n` says behind its keyword. -/
def keywordClauseOf (n : String) : Keyword → Parser Clause
  | .primary => do
    expect (.keyword .key) "KEY"
    return .primaryKey
  | .not => do
    let t ← current
    if t == .keyword .null then
      advance
      return .required
    else if isWord "DEFERRABLE" t then
      advance
      return .skipped
    else refuse "NULL"
  | .null => return .optional
  | .unique => do
    discard <| accept (· == .keyword .key)
    return .unique
  | .default => return .default (← defaultExpression)
  | .references => return .reference (← reference [n] none)
  | .check => do
    skipParenthesized
    return .skipped
  | .collate => do
    discard <| qualifiedName "collation"
    return .skipped
  | .comment => do
    match ← current with
    | .str text =>
      advance
      return .comment text
    | _ => return .skipped
  | .increment => return .counter
  | .constraint => do
    discard <| name "constraint name"
    return .skipped
  | .on => do
    discard <| accept fun t => t == .keyword .update || t == .keyword .delete
    advance
    if (← current) == .lparen then skipParenthesized
    return .skipped
  | _ => return .skipped

/-- Reads what a clause of column `n` says that begins with `t`, if `t` does not end the element. -/
def clauseFrom (n : String) (t : Token) : Parser (Option Clause) :=
  match t with
  | .comma | .rparen | .eof => return none
  | .keyword k => do
    advance
    return some (← keywordClauseOf n k)
  | .lparen => do
    skipParenthesized
    return some .skipped
  | t => do
    advance
    return some (if isWord "IDENTITY" t then .counter else .skipped)

/-- Reads what a clause of column `n` says, if there is one before the end of the element. -/
def clauseOf (n : String) : Parser (Option Clause) := do
  clauseFrom n (← current)

/-- A parser that fails has nothing to map. -/
theorem map_refuse {α β : Type} (f : α → β) (what : String) :
    f <$> (refuse what : Parser α) = refuse what := by
  simp only [refuse, map_bind]
  refine congrArg _ (funext fun t => ?_)
  split <;> rfl

theorem keywordClause_eq (d : ColumnDraft) (k : Keyword) :
    keywordClause d k = Clause.apply d <$> keywordClauseOf d.column.name k := by
  cases k with
  | not =>
    simp only [keywordClause, keywordClauseOf, map_bind]
    refine congrArg _ (funext fun t => ?_)
    split
    · rfl
    · split
      · rfl
      · exact (map_refuse _ _).symm
  | comment =>
    simp only [keywordClause, keywordClauseOf, map_bind]
    refine congrArg _ (funext fun t => ?_)
    cases t <;> rfl
  | on =>
    simp only [keywordClause, keywordClauseOf, map_bind]
    refine congrArg _ (funext fun _ => congrArg _ (funext fun _ => congrArg _ (funext fun t => ?_)))
    split
    · rw [map_bind]
      rfl
    · rfl
  -- the others change the draft once they are read
  | _ =>
    simp only [keywordClause, keywordClauseOf, map_bind, map_pure]
    rfl

/-- The next step of a column, whose draft is `d`. -/
def Clause.step (d : ColumnDraft) : Option Clause → ForInStep ColumnDraft
  | none => .done d
  | some c => .yield (c.apply d)

theorem columnClause_eq (d : ColumnDraft) :
    columnClause d = Clause.step d <$> clauseOf d.column.name := by
  rw [columnClause, clauseOf, map_bind]
  refine congrArg _ (funext fun t => ?_)
  -- a word that is no clause of its own counts if it is `IDENTITY`
  have hword (t : Token) : (do
      advance
      return .yield (if isWord "IDENTITY" t then d.change ({ · with autoIncrement := true }) else d) :
        Parser (ForInStep ColumnDraft)) = Clause.step d <$> (do
      advance
      return some (if isWord "IDENTITY" t then .counter else .skipped)) := by
    simp only [map_bind, map_pure]
    split <;> rfl
  cases t with
  | comma | rparen | eof => rfl
  | keyword k =>
    simp only [clauseFrom, keywordClause_eq, map_bind, map_pure, bind_map_left]
    rfl
  | lparen =>
    simp only [clauseFrom, map_bind, map_pure]
    rfl
  | _ => exact hword _

-- ---------------------------------------------------------------------------
-- Two drafts
-- ---------------------------------------------------------------------------

/-- Drafts look the same after a clause if all that a clause can say leaves them so. -/
theorem alike_columnClause {γ : Type} {view : ColumnDraft → γ} {d d' : ColumnDraft}
    (hname : d.column.name = d'.column.name) (h : view d = view d')
    (happly : ∀ c : Clause, view (c.apply d) = view (c.apply d')) :
    Alike (stepView view) (columnClause d) (columnClause d') := by
  rw [columnClause_eq, columnClause_eq, hname, map_eq_pure_bind, map_eq_pure_bind]
  refine .next fun c? => .pure ?_
  cases c? with
  | none => exact congrArg ForInStep.done h
  | some c => exact congrArg ForInStep.yield (happly c)

-- ---------------------------------------------------------------------------
-- One draft
-- ---------------------------------------------------------------------------

/-- A reference that a clause notes stands in column `n`. -/
def Clause.StandsIn (n : String) (c : Clause) : Prop :=
  ∀ fk ∈ c.reference?, fk.columns = [n]

theorem yields_reference {columns : List String} {constraint : Option String} :
    Yields (reference columns constraint) fun fk => fk.columns = columns := by
  refine .next fun target => .next fun t => ?_
  split
  all_goals exact .next fun targetColumns => .next fun actions => .pure rfl

theorem yields_keywordClauseOf {P : Clause → Prop} (n : String) (k : Keyword)
    (hdefault : k = .default → ∀ expression, P (.default expression))
    (hreference : ∀ fk, fk.columns = [n] → P (.reference fk))
    (hother : ∀ c, (∀ expression, c ≠ .default expression) → (∀ fk, c ≠ .reference fk) → P c) :
    Yields (keywordClauseOf n k) P := by
  cases k <;> simp only [keywordClauseOf]
  -- only `DEFAULT` and `REFERENCES` make clauses of the two kinds that are asked for
  case primary => exact .next fun _ => .pure (hother _ nofun nofun)
  case not =>
    exact .next fun t => .ite (fun _ => .next fun _ => .pure (hother _ nofun nofun)) fun _ =>
      .ite (fun _ => .next fun _ => .pure (hother _ nofun nofun)) fun _ => .refuse
  case default => exact .next fun expression => .pure (hdefault rfl expression)
  case references => exact .bind yields_reference fun fk hfk => .pure (hreference fk hfk)
  case comment =>
    refine .next fun t => ?_
    split
    · exact .next fun _ => .pure (hother _ nofun nofun)
    · exact .pure (hother _ nofun nofun)
  case on =>
    exact .next fun _ => .next fun _ => .next fun t => .ite
      (fun _ => .next fun _ => .pure (hother _ nofun nofun)) fun _ => .pure (hother _ nofun nofun)
  case unique | check | collate | constraint =>
    exact .next fun _ => .pure (hother _ nofun nofun)
  all_goals exact .pure (hother _ nofun nofun)

/-- Only a reference has to stand in its column. -/
theorem standsIn_keywordClauseOf (n : String) (k : Keyword) :
    Yields (keywordClauseOf n k) (Clause.StandsIn n) := by
  refine yields_keywordClauseOf n k (fun _ _ => nofun) (fun fk hfk => ?_) fun c _ hc => ?_
  · rintro _ ⟨⟩
    exact hfk
  · cases c with
    | reference fk => exact absurd rfl (hc fk)
    | _ => nofun

theorem yields_clauseOf (n : String) :
    Yields (clauseOf n) fun c? => ∀ c ∈ c?, c.StandsIn n := by
  refine .next fun t => ?_
  unfold clauseFrom
  split
  · exact .pure nofun
  · exact .pure nofun
  · exact .pure nofun
  · refine .next fun _ => .bind (standsIn_keywordClauseOf n _) fun c hc => .pure ?_
    rintro _ ⟨⟩
    exact hc
  · refine .next fun _ => .pure ?_
    rintro _ ⟨⟩
    exact nofun
  · refine .next fun _ => .pure ?_
    split
    all_goals
      rintro _ ⟨⟩
      exact nofun

/-- What the clauses of a column keep: they change a column in anything but its name and its type,
and note references that stand in it. -/
structure ClauseInvariant (I : ColumnDraft → Prop) : Prop where
  change    : ∀ {d : ColumnDraft} {f : Column → Column},
                (∀ c, (f c).signature = c.signature) → I d → I (d.change f)
  reference : ∀ {d : ColumnDraft} {fk : PendingForeignKey},
                fk.columns = [d.column.name] → I d → I { d with foreignKey := some fk }

theorem ClauseInvariant.apply {I : ColumnDraft → Prop} (hI : ClauseInvariant I) {d : ColumnDraft}
    (h : I d) {c : Clause} (hc : c.StandsIn d.column.name) : I (c.apply d) := by
  have hchange : I (d.change c.change) := hI.change c.signature_change h
  cases c with
  | reference fk => exact hI.reference (hc fk rfl) h
  | _ => exact hchange

theorem yields_columnClause {I : ColumnDraft → Prop} (hI : ClauseInvariant I) {d : ColumnDraft}
    (h : I d) : Yields (columnClause d) fun next => I next.value := by
  rw [columnClause_eq, map_eq_pure_bind]
  refine .bind (yields_clauseOf d.column.name) fun c? hc => .pure ?_
  cases c? with
  | none => exact h
  | some c => exact hI.apply h (hc c rfl)

end CrudGen.Sql.Parser
