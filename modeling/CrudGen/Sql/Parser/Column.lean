import CrudGen.Sql.Parser.Expression
import CrudGen.Sql.Dialect
import CrudGen.Text.Basic

/-!
# Column definitions

A column is a name, a type and clauses in any order. A type is read with its parameters, which are
sizes or labels, and with any number of array suffixes. Words between clauses that mean nothing
here are skipped.
-/

namespace CrudGen.Sql.Parser

/-- Words that may go on with a type name of several words. -/
def typeContinuations : List String :=
  ["precision", "varying", "with", "without", "time", "zone", "unsigned", "signed", "zerofill"]

/-- What stands in the parentheses of a type: sizes, labels, and everything as it is shown. -/
structure TypeArguments where
  sizes : List Nat := []
  labels : List String := []
  shown : List String := []
  deriving Repr, Inhabited

/-- Reads the arguments of a type up to the closing parenthesis. -/
def typeArguments : List Token → Except SyntaxError (TypeArguments × List Token)
  | [] => .error .endOfStatement
  | t :: rest =>
    match t with
    | .rparen => .ok ({}, rest)
    | .num digits =>
      match Text.size? digits with
      | none => .error (.invalidNumber digits)
      | some n => do
        let (args, left) ← typeArguments rest
        return ({ args with sizes := n :: args.sizes, shown := digits :: args.shown }, left)
    | .str label => do
      let (args, left) ← typeArguments rest
      return ({ args with labels := label :: args.labels, shown := t.text :: args.shown }, left)
    | .comma => typeArguments rest
    | _ => do
      let (args, left) ← typeArguments rest
      return ({ args with shown := t.text :: args.shown }, left)

/-- A type as it was written: the words of its name, its text, its arguments and the number of
array suffixes. -/
structure WrittenType where
  words : List String
  text : String
  sizes : List Nat := []
  labels : List String := []
  arrays : Nat := 0
  deriving Repr, Inhabited

/-- The type with arguments in parentheses behind it. -/
def WrittenType.withArguments (w : WrittenType) (args : TypeArguments) : WrittenType :=
  { w with
    text := w.text ++ "(" ++ ",".intercalate args.shown ++ ")"
    sizes := w.sizes ++ args.sizes
    labels := w.labels ++ args.labels }

/-- Reads what goes on with a type: arguments, further words and array suffixes. -/
def typeSuffix (w : WrittenType) : Parser (ForInStep WrittenType) := do
  match ← current with
  | .lparen =>
    advance
    let args ← (typeArguments : Parser TypeArguments)
    return .yield (w.withArguments args)
  | .ident word =>
    let lower := Text.toLower word
    if typeContinuations.contains lower then
      advance
      return .yield { w with words := w.words ++ [lower], text := w.text ++ " " ++ word }
    return .done w
  | .brackets =>
    advance
    return .yield { w with text := w.text ++ "[]", arrays := w.arrays + 1 }
  | _ => return .done w

/-- Reads one more part of the name of a type. -/
def typePart (n : String) : Parser (ForInStep String) := do
  if ← accept (· == .dot) then return .yield (← name "type name")
  return .done n

/-- Reads a type whose first word is `first`. -/
def typeFrom (first : String) : Parser WrittenType := do
  let last ← iterate typePart first
  iterate typeSuffix { words := [Text.toLower last], text := last }

/-- Reads a type; `column` is named when there is none. -/
def writtenType (column : String) : Parser WrittenType := do
  let first ← match ← current with
    | .ident n | .serial n =>
      advance
      pure n
    | _ => throw (.missingType column)
  typeFrom first

/-- A type inside a number of array layers. -/
def arrayOf : Nat → SqlType → SqlType
  | 0, t => t
  | n + 1, t => arrayOf n (.array t)

/-- The enumeration that a type with labels declares for its column. -/
def WrittenType.inlineEnum? (w : WrittenType) (table column : String) : Option EnumType :=
  let base := " ".intercalate w.words
  if (base == "enum" || base == "set") && !w.labels.isEmpty then
    some { name := table ++ "_" ++ column, labels := w.labels }
  else none

/-- What a written type means for a column of a table. -/
def WrittenType.meaning (w : WrittenType) (dialect : Dialect) (table column : String) :
    TypeMeaning :=
  let base : TypeMeaning :=
    match w.inlineEnum? table column with
    | some e => { dataType := .enum e.name }
    | none => .ofName (" ".intercalate w.words) w.sizes dialect
  { base with dataType := arrayOf w.arrays base.dataType }

/-- Reads what happens to a row when the row it refers to goes or changes. -/
def referentialAction : Parser ReferentialAction := do
  let t ← current
  let action ←
    if t == .keyword .cascade then pure .cascade
    else if t == .keyword .restrict then pure .restrict
    else if isWord "SET" t then
      advance
      match ← current with
      | .keyword .null => pure .setNull
      | .keyword .default => pure .setDefault
      | _ => refuse "NULL or DEFAULT"
    else if isWord "NO" t then
      advance
      if isWord "ACTION" (← current) then pure .noAction else refuse "ACTION"
    else refuse "referential action"
  advance
  return action

/-- Reads what follows `ON` after a reference. -/
def referenceEvent (actions : ReferentialAction × ReferentialAction) :
    Parser (ForInStep (ReferentialAction × ReferentialAction)) := do
  match ← current with
  | .keyword .delete =>
    advance
    return .yield (← referentialAction, actions.2)
  | .keyword .update =>
    advance
    return .yield (actions.1, ← referentialAction)
  | _ => refuse "DELETE or UPDATE"

/-- Reads one clause after a reference; the actions are the ones on deletion and on update. -/
def referenceClause (actions : ReferentialAction × ReferentialAction) :
    Parser (ForInStep (ReferentialAction × ReferentialAction)) := do
  let t ← current
  if t == .keyword .on then
    advance
    referenceEvent actions
  else if isWord "MATCH" t then
    advance
    advance
    return .yield actions
  else if isOneOf ["DEFERRABLE", "INITIALLY"] t then
    advance
    discard <| accept (isOneOf ["DEFERRED", "IMMEDIATE"])
    return .yield actions
  else if t == .keyword .not && isWord "DEFERRABLE" (← peek 1) then
    advance
    advance
    return .yield actions
  else return .done actions

/-- Reads what follows the table and the columns that are referred to. -/
def referenceBehind (constraint : Option String) (columns : List String) (table : String)
    (targetColumns : Option (List String)) : Parser PendingForeignKey := do
  let (onDelete, onUpdate) ← iterate referenceClause (.noAction, .noAction)
  return { name := constraint, columns, targetTable := table, targetColumns, onDelete, onUpdate }

/-- Reads what follows `REFERENCES`. -/
def reference (columns : List String) (constraint : Option String) : Parser PendingForeignKey := do
  let targetTable ← qualifiedName "referenced table"
  let targetColumns ← if (← current) == .lparen then some <$> columnList else pure none
  referenceBehind constraint columns targetTable targetColumns

/-- What the clauses of a column have said so far. -/
structure ColumnDraft where
  column : Column
  foreignKey : Option PendingForeignKey := none
  deriving Repr, Inhabited

/-- A column before its clauses. -/
def ColumnDraft.start (dialect : Dialect) (table columnName : String) (written : WrittenType) :
    ColumnDraft :=
  let meaning := written.meaning dialect table columnName
  let sizes := TypeSizes.ofArgs meaning.dataType written.sizes
  { column := {
      name := columnName
      declaredType := written.text
      dataType := meaning.dataType
      autoIncrement := meaning.autoIncrement
      length := sizes.length
      precision := sizes.precision
      scale := sizes.scale } }

/-- Changes the column of a draft. -/
def ColumnDraft.change (d : ColumnDraft) (f : Column → Column) : ColumnDraft :=
  { d with column := f d.column }

/-- Reads a clause that begins with a keyword, which is already dropped. -/
def keywordClause (d : ColumnDraft) : Keyword → Parser ColumnDraft
  | .primary => do
    expect (.keyword .key) "KEY"
    return d.change ({ · with primaryKey := true, nullable := false })
  | .not => do
    let t ← current
    if t == .keyword .null then
      advance
      return d.change ({ · with nullable := false })
    else if isWord "DEFERRABLE" t then
      advance
      return d
    else refuse "NULL"
  | .null => return d.change ({ · with nullable := true })
  | .unique => do
    discard <| accept (· == .keyword .key)
    return d.change ({ · with unique := true })
  | .default => do
    let expression ← defaultExpression
    return d.change fun c =>
      { c with
        default := some expression
        autoIncrement := c.autoIncrement || drawsFromSequence expression }
  | .references => do
    return { d with foreignKey := some (← reference [d.column.name] none) }
  | .check => do
    skipParenthesized
    return d
  | .collate => do
    discard <| qualifiedName "collation"
    return d
  | .comment => do
    match ← current with
    | .str text =>
      advance
      return d.change ({ · with comment := some text })
    | _ => return d
  | .increment => return d.change ({ · with autoIncrement := true })
  | .constraint => do
    discard <| name "constraint name"
    return d
  | .on => do
    discard <| accept fun t => t == .keyword .update || t == .keyword .delete
    advance
    if (← current) == .lparen then skipParenthesized
    return d
  | _ => return d

/-- Reads one clause of a column, or stops before the end of its element. -/
def columnClause (d : ColumnDraft) : Parser (ForInStep ColumnDraft) := do
  match ← current with
  | .comma | .rparen | .eof => return .done d
  | .keyword k =>
    advance
    return .yield (← keywordClause d k)
  | .lparen =>
    skipParenthesized
    return .yield d
  | t =>
    advance
    return .yield (if isWord "IDENTITY" t then d.change ({ · with autoIncrement := true }) else d)

/-- Reads a column of a table. -/
def column (dialect : Dialect) (table : String) : Parser ColumnDefinition := do
  let columnName ← name "column name"
  let written ← writtenType columnName
  let d ← iterate columnClause (.start dialect table columnName written)
  return {
    column := d.column
    foreignKey := d.foreignKey
    inlineEnum := written.inlineEnum? table columnName }

end CrudGen.Sql.Parser
