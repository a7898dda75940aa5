import CrudGen.Proofs.Sql.Alike
import CrudGen.Proofs.Sql.Yields
import CrudGen.Sql.Parser.Table

/-!
# Tables — what their elements say

An element of a table is read in the same way whatever the elements before it have said. So it says
something by itself, an `Entry`, and a table is what its entries make up one after the other.

Main results:

* `tableElement_eq` — reading an element is reading its entry, and entering that.
* `alike_tableElement`, `yields_tableElement` — what every entry keeps, reading one keeps.
-/

namespace CrudGen.Sql.Parser

theorem constraintFrom_word {constraint : Option String} {t : Token} (ht : ∀ k, t ≠ .keyword k) :
    constraintFrom constraint t = (if isWord "EXCLUDE" t then do
      skipElement
      return .ignored
    else refuse "constraint") := by
  cases t with
  | keyword k => exact absurd rfl (ht k)
  | _ => rfl

/-- What an element of a table says. -/
inductive Entry where
  | column (c : ColumnDefinition)
  | constraint (k : TableConstraint)
  /-- An element that says nothing about the columns. -/
  | skipped
  deriving DecidableEq, Repr, Inhabited

/-- The draft of a table after one more entry. -/
def TableDraft.enter (d : TableDraft) : Entry → Except SyntaxError TableDraft
  | .column c => d.addColumn c
  | .constraint k => .ok (d.addConstraint k)
  | .skipped => .ok d

/-- Reads a column of a table as an entry. -/
def columnEntry (dialect : Dialect) (table : String) : Parser Entry := do
  return .column (← column dialect table)

/-- Reads an index or a column, whichever begins with `KEY` or `INDEX` here. -/
def keyOrColumn (dialect : Dialect) (table : String) : Parser Entry := do
  if beginsIndex ((← get).drop 1) then
    advance
    return .constraint (.index (← indexBody))
  else columnEntry dialect table

/-- Reads a column, or drops an element that begins with a word `t` of its own. -/
def wordOrColumn (dialect : Dialect) (table : String) (t : Token) : Parser Entry :=
  if isOneOf skippedElements t then do
    skipElement
    return .skipped
  else columnEntry dialect table

/-- Reads what an element of a table says, which begins with `t`. -/
def entryFrom (dialect : Dialect) (table : String) (t : Token) : Parser Entry :=
  match t with
  | .keyword .constraint => do
    advance
    let constraint ← name "constraint name"
    return .constraint (← tableConstraint (some constraint))
  | .keyword .primary | .keyword .unique | .keyword .foreign | .keyword .check => do
    return .constraint (← tableConstraint none)
  | .keyword .index | .keyword .key => keyOrColumn dialect table
  | t => wordOrColumn dialect table t

/-- Reads what an element of a table says. -/
def entry (dialect : Dialect) (table : String) : Parser Entry := do
  entryFrom dialect table (← current)

/-- Enters what an element says. -/
def entering (d : TableDraft) (e : Entry) : Parser (ForInStep TableDraft) := do
  return .yield (← d.enter e)

/-- What is read of a column, and entered. -/
theorem columnEntry_bind (dialect : Dialect) (table : String) (d : TableDraft) :
    columnEntry dialect table >>= entering d =
      (do return .yield (← d.addColumn (← column dialect table))) := by
  simp only [columnEntry, bind_assoc, pure_bind]
  rfl

theorem tableElement_eq (dialect : Dialect) (table : String) (d : TableDraft) :
    tableElement dialect table d = (do
      match ← current with
      | .rparen =>
        advance
        return .done d
      | .eof => throw .endOfStatement
      | .comma =>
        advance
        return .yield d
      | t => entryFrom dialect table t >>= entering d) := by
  have hindex : (do
      if beginsIndex ((← get).drop 1) then
        advance
        return .yield (d.addConstraint (.index (← indexBody)))
      else return .yield (← d.addColumn (← column dialect table)) :
        Parser (ForInStep TableDraft)) = keyOrColumn dialect table >>= entering d := by
    rw [← columnEntry_bind, keyOrColumn, bind_assoc]
    refine congrArg _ (funext fun ts => ?_)
    split
    · simp only [bind_assoc, pure_bind]
      rfl
    · rfl
  have hother (t : Token) : (if isOneOf skippedElements t then do
        skipElement
        return .yield d
      else do return .yield (← d.addColumn (← column dialect table)) :
        Parser (ForInStep TableDraft)) = wordOrColumn dialect table t >>= entering d := by
    rw [← columnEntry_bind, wordOrColumn]
    split
    · simp only [bind_assoc, pure_bind]
      rfl
    · rfl
  -- both sides ask for the first token and then agree on each kind of it
  refine congrArg (bind current) (funext fun t => ?_)
  cases t with
  | rparen | eof | comma => rfl
  | keyword k =>
    cases k with
    | constraint | primary | unique | foreign | check =>
      simp only [entryFrom, bind_assoc, pure_bind]
      rfl
    | index | key => exact hindex
    | _ => exact hother _
  | _ => exact hother _

theorem alike_entering {γ : Type} {view : TableDraft → γ} {d d' : TableDraft} {e e' : Entry}
    (h : (d.enter e).map view = (d'.enter e').map view) :
    Alike (stepView view) (entering d e) (entering d' e') :=
  .bind (.lift h) fun _ _ hd => .pure (congrArg ForInStep.yield hd)

/-- What entries keep looking the same, elements do. -/
theorem alike_tableElement {γ : Type} {view : TableDraft → γ} {dialect dialect' : Dialect}
    {table : String} {d d' : TableDraft} (h : view d = view d')
    (henter : ∀ t, Alike (stepView view) (entryFrom dialect table t >>= entering d)
      (entryFrom dialect' table t >>= entering d')) :
    Alike (stepView view) (tableElement dialect table d) (tableElement dialect' table d') := by
  rw [tableElement_eq, tableElement_eq]
  refine .next fun t => ?_
  split
  · exact .next fun _ => .pure (congrArg ForInStep.done h)
  · exact .refl
  · exact .next fun _ => .pure (congrArg ForInStep.yield h)
  · exact henter _

/-- An entry has what columns and constraints have. -/
theorem yields_entryFrom {P : Entry → Prop} {dialect : Dialect} {table : String}
    (hcolumn : Yields (column dialect table) fun c => P (.column c))
    (hconstraint : ∀ n, Yields (tableConstraint n) fun k => P (.constraint k))
    (hindex : Yields indexBody fun i => P (.constraint (.index i))) (hskipped : P .skipped)
    (t : Token) : Yields (entryFrom dialect table t) P := by
  have hcolumnEntry : Yields (columnEntry dialect table) P := .bind hcolumn fun _ hc => .pure hc
  have hkeyOrColumn : Yields (keyOrColumn dialect table) P :=
    .next fun _ => .ite (fun _ => .next fun _ => .bind hindex fun _ hi => .pure hi)
      fun _ => hcolumnEntry
  unfold entryFrom
  split
  · exact .next fun _ => .next fun _ => .bind (hconstraint _) fun _ hk => .pure hk
  · exact .bind (hconstraint _) fun _ hk => .pure hk
  · exact .bind (hconstraint _) fun _ hk => .pure hk
  · exact .bind (hconstraint _) fun _ hk => .pure hk
  · exact .bind (hconstraint _) fun _ hk => .pure hk
  · exact hkeyOrColumn
  · exact hkeyOrColumn
  · exact .ite (fun _ => .next fun _ => .pure hskipped) fun _ => hcolumnEntry

/-- What every entry keeps, elements keep. -/
theorem yields_tableElement {I : TableDraft → Prop} {P : Entry → Prop} {dialect : Dialect}
    {table : String} {d : TableDraft} (hentry : ∀ t, Yields (entryFrom dialect table t) P)
    (henter : ∀ e d', P e → d.enter e = .ok d' → I d') (h : I d) :
    Yields (tableElement dialect table d) fun next => I next.value := by
  rw [tableElement_eq]
  refine .next fun t => ?_
  split
  · exact .next fun _ => .pure h
  · exact .throw
  · exact .next fun _ => .pure h
  · exact .bind (hentry _) fun e he => .bind (.lift (henter e · he)) fun _ hd => .pure hd

end CrudGen.Sql.Parser
