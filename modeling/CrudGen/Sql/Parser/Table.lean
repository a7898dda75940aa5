import CrudGen.Sql.Parser.Column

/-!
# Table definitions

The elements of a table are columns and constraints in any order. Constraints are collected first
and looked at when every column is known.
-/

namespace CrudGen.Sql.Parser

/-- Whether a `KEY` or `INDEX` before these tokens begins an index and not a column of that name. -/
def beginsIndex (after : List Token) : Bool :=
  match after with
  | .lparen :: _ => true
  | .ident _ :: .lparen :: .ident _ :: _ => true
  | .ident _ :: t :: _ => isWord "USING" t
  | _ => false

/-- Reads the method and the columns of an index. -/
def indexOf (indexName : Option String) : Parser Index := do
  if ← accept (isWord "USING") then discard <| name "index method"
  let columns ← columnList
  return { name := indexName, columns, unique := false }

/-- Reads an index after its first word: a name, a method and the columns. -/
def indexBody : Parser Index := do
  let indexName ← match ← current with
    | .ident n =>
      if Text.sameName n "USING" then pure none
      else
        advance
        pure (some n)
    | _ => pure none
  indexOf indexName

/-- Reads the columns of a `UNIQUE` and drops the rest of its element. -/
def uniqueOf (constraint : Option String) : Parser TableConstraint := do
  let columns ← columnList
  skipElement
  return .unique { name := constraint, columns }

/-- Reads the columns of a foreign key and what they refer to. -/
def foreignKeyOf (constraint : Option String) : Parser TableConstraint := do
  let columns ← columnList
  expect (.keyword .references) "REFERENCES"
  return .foreignKey (← reference columns constraint)

/-- Reads a constraint that begins with `t`. -/
def constraintFrom (constraint : Option String) (t : Token) : Parser TableConstraint :=
  match t with
  | .keyword .primary => do
    advance
    expect (.keyword .key) "KEY"
    return .primaryKey (← columnList)
  | .keyword .unique => do
    advance
    discard <| accept fun t => t == .keyword .key || t == .keyword .index
    let indexName ← if (← peek 1) == .lparen then identifier? else pure none
    uniqueOf (constraint.or indexName)
  | .keyword .foreign => do
    advance
    expect (.keyword .key) "KEY"
    let indexName ← identifier?
    foreignKeyOf (constraint.or indexName)
  | .keyword .check => do
    advance
    skipParenthesized
    skipElement
    return .ignored
  | .keyword .index | .keyword .key => do
    advance
    return .index (← indexBody)
  | t =>
    if isWord "EXCLUDE" t then do
      skipElement
      return .ignored
    else refuse "constraint"

/-- Reads a constraint of a table, whose name is read already. -/
def tableConstraint (constraint : Option String) : Parser TableConstraint := do
  constraintFrom constraint (← current)

/-- What the elements of a table have said so far. -/
structure TableDraft where
  columns : List Column := []
  foreignKeys : List PendingForeignKey := []
  inlineEnums : List EnumType := []
  constraints : List TableConstraint := []
  deriving Repr, Inhabited

/-- Adds a column, whose name has to be new. -/
def TableDraft.addColumn (d : TableDraft) (c : ColumnDefinition) : Except SyntaxError TableDraft :=
  if d.columns.any fun other => Text.sameName other.name c.column.name then
    .error (.duplicateColumn c.column.name)
  else
    .ok { d with
      columns := d.columns ++ [c.column]
      foreignKeys := d.foreignKeys ++ c.foreignKey.toList
      inlineEnums := d.inlineEnums ++ c.inlineEnum.toList }

/-- Adds a constraint. -/
def TableDraft.addConstraint (d : TableDraft) (c : TableConstraint) : TableDraft :=
  { d with constraints := d.constraints ++ [c] }

/-- Words that begin elements which say nothing about columns. -/
def skippedElements : List String :=
  ["FULLTEXT", "SPATIAL", "EXCLUDE", "LIKE", "PERIOD"]

/-- Reads one element of a table, a comma, or the parenthesis that ends the table. -/
def tableElement (dialect : Dialect) (table : String) (d : TableDraft) :
    Parser (ForInStep TableDraft) := do
  let columnElement : Parser (ForInStep TableDraft) := do
    return .yield (← d.addColumn (← column dialect table))
  match ← current with
  | .rparen =>
    advance
    return .done d
  | .eof => throw .endOfStatement
  | .comma =>
    advance
    return .yield d
  | .keyword .constraint =>
    advance
    let constraint ← name "constraint name"
    return .yield (d.addConstraint (← tableConstraint (some constraint)))
  | .keyword .primary | .keyword .unique | .keyword .foreign | .keyword .check =>
    return .yield (d.addConstraint (← tableConstraint none))
  | .keyword .index | .keyword .key =>
    if beginsIndex ((← get).drop 1) then
      advance
      return .yield (d.addConstraint (.index (← indexBody)))
    else columnElement
  | t =>
    if isOneOf skippedElements t then
      skipElement
      return .yield d
    else columnElement

/-- Columns in their declared spelling, required by the constraint `context`. -/
def requireColumns (t : Table) (columns : List String) (context : String) :
    Except SyntaxError (List String) :=
  (t.declaredColumns columns).mapError fun column => .unknownColumn column context

/-- Flags the columns of the primary key, which cannot be null. -/
def markPrimaryKey (t : Table) : Table :=
  { t with columns := t.columns.map fun c =>
      if t.primaryKey.contains c.name then { c with primaryKey := true, nullable := false } else c }

/-- Adds a constraint to a table and its references. -/
def applyConstraint : Table × List PendingForeignKey → TableConstraint →
    Except SyntaxError (Table × List PendingForeignKey)
  | (t, fks), .primaryKey columns => do
    let columns ← requireColumns t columns "PRIMARY KEY"
    if !t.primaryKey.isEmpty then throw (.multiplePrimaryKeys t.name)
    return ({ t with primaryKey := columns }, fks)
  | (t, fks), .unique u => do
    let columns ← requireColumns t u.columns "UNIQUE"
    return ({ t with uniques := t.uniques ++ [{ u with columns }] }, fks)
  | (t, fks), .foreignKey fk => do
    let columns ← requireColumns t fk.columns "FOREIGN KEY"
    return (t, fks ++ [{ fk with columns }])
  | (t, fks), .index i => do
    let columns ← requireColumns t i.columns "INDEX"
    return ({ t with indexes := t.indexes ++ [{ i with columns }] }, fks)
  | (t, fks), .ignored => return (t, fks)

/-- The definition that the elements of a table make up. -/
def TableDraft.definition (d : TableDraft) (table : String) (ifNotExists : Bool) :
    Except SyntaxError TableDefinition := do
  if d.columns.isEmpty then throw (.noColumns table)
  let inlineKey := (d.columns.filter (·.primaryKey)).map (·.name)
  if inlineKey.length > 1 then throw (.multiplePrimaryKeys table)
  let start : Table := { name := table, columns := d.columns, primaryKey := inlineKey }
  let (t, foreignKeys) ← d.constraints.foldlM applyConstraint (start, d.foreignKeys)
  return { table := markPrimaryKey t, foreignKeys, inlineEnums := d.inlineEnums, ifNotExists }

/-- Reads what stands behind the parenthesis that opens a table, and the parenthesis that closes
it. -/
def tableBody (dialect : Dialect) (table : String) (ifNotExists : Bool) : Parser Statement := do
  let d ← iterate (tableElement dialect table) {}
  return .createTable (← d.definition table ifNotExists)

/-- Reads what follows `CREATE TABLE`. A table without a list of elements is skipped. -/
def createTable (dialect : Dialect) : Parser Statement := do
  let ifNotExists ← skipIfExists
  let table ← qualifiedName "table name"
  if ← accept (· == .lparen) then
    tableBody dialect table ifNotExists
  else return .skipped

end CrudGen.Sql.Parser
