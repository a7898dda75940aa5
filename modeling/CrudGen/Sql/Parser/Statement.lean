import CrudGen.Sql.Parser.Table

/-!
# Statements

`Statement.parse` reads one statement from its tokens. Statements that declare no table, index,
sequence or enumeration and change no table are skipped.
-/

namespace CrudGen.Sql

namespace Parser

/-- The columns of a `CREATE INDEX` so far, and whether an expression was among them. -/
structure IndexDraft where
  columns : List String := []
  expression : Bool := false
  deriving Repr, Inhabited

/-- Drops one token or group behind a column of an index. -/
def indexOption (_ : Unit) : Parser (ForInStep Unit) := do
  match ← current with
  | .comma | .rparen | .eof => return .done ()
  | .lparen =>
    skipParenthesized
    return .yield ()
  | _ =>
    advance
    return .yield ()

/-- Drops what follows a column of an index, up to the end of its element. -/
def skipIndexOptions : Parser Unit :=
  iterate indexOption ()

/-- Drops a group behind a column of an index, and says whether it makes an expression. It holds a
length if it begins with a number. -/
def indexCall : Parser Bool := do
  match ← get with
  | .lparen :: .num _ :: _ =>
    skipParenthesized
    return false
  | .lparen :: _ =>
    skipParenthesized
    return true
  | _ => return false

/-- Reads what follows the name of a column of an index. -/
def indexColumn (d : IndexDraft) (column : String) : Parser (ForInStep IndexDraft) := do
  let called ← indexCall
  skipIndexOptions
  return .yield { columns := d.columns ++ [column], expression := d.expression || called }

/-- Reads one element of an index, a comma, or the parenthesis that ends the list. -/
def indexElement (d : IndexDraft) : Parser (ForInStep IndexDraft) := do
  match ← current with
  | .rparen =>
    advance
    return .done d
  | .eof => throw .endOfStatement
  | .comma =>
    advance
    return .yield d
  | .lparen =>
    skipParenthesized
    return .yield { d with expression := true }
  | _ => indexColumn d (← name "index column")

/-- Reads the name of an index and what stands before its table. -/
def indexTarget : Parser (Option String) := do
  discard <| accept (isWord "CONCURRENTLY")
  discard skipIfExists
  let indexName ←
    if (← current) == .keyword .on then pure none else some <$> qualifiedName "index name"
  expect (.keyword .on) "ON"
  discard <| accept (· == .keyword .only)
  return indexName

/-- Reads what stands between the table of a `CREATE INDEX` and its columns. -/
def indexOpening : Parser Unit := do
  if ← accept (isWord "USING") then discard <| name "index method"
  expect .lparen "index column list"

/-- Puts an index together. -/
def indexOn (unique : Bool) (indexName : Option String) (table : String) (d : IndexDraft) :
    Parser Statement := do
  if d.columns.isEmpty && !d.expression then throw .emptyColumnList
  return .change (.index table
    (if d.expression then none else some { name := indexName, columns := d.columns, unique }))

/-- Reads what follows `CREATE INDEX`. -/
def createIndex (unique : Bool) : Parser Statement := do
  let indexName ← indexTarget
  let table ← qualifiedName "table name"
  indexOpening
  indexOn unique indexName table (← iterate indexElement {})

/-- Reads a whole number. -/
def integer : Parser Int := do
  match ← current with
  | .num digits =>
    match Text.integer? digits with
    | some n =>
      advance
      return n
    | none => throw (.invalidNumber digits)
  | _ => refuse "number"

/-- Reads what an option of a sequence says, whose first token `t` is dropped already. -/
def optionFrom (s : Sequence) (t : Token) : Parser (ForInStep Sequence) := do
  if t == .keyword .increment then
    discard <| accept (isWord "BY")
    return .yield { s with increment := some (← integer) }
  else if isWord "START" t then
    discard <| accept (isWord "WITH")
    return .yield { s with start := some (← integer) }
  else if isWord "OWNED" t then
    expectWord "BY"
    if ← accept (isWord "NONE") then return .yield s
    match (← nameParts "owning column").reverse with
    | column :: table :: _ => return .yield { s with ownedBy := some (table, column) }
    | _ => refuse "table.column"
  else return .yield s

/-- Reads one option of a sequence. -/
def sequenceOption (s : Sequence) : Parser (ForInStep Sequence) := do
  let t ← current
  if t == .eof then return .done s
  advance
  optionFrom s t

/-- Reads what follows `CREATE SEQUENCE`. -/
def createSequence : Parser Statement := do
  discard skipIfExists
  let sequence ← qualifiedName "sequence name"
  return .createSequence (← iterate sequenceOption { name := sequence })

/-- Reads one label of an enumeration, a comma, or the parenthesis that ends the list. -/
def enumLabel (labels : List String) : Parser (ForInStep (List String)) := do
  match ← current with
  | .rparen =>
    advance
    return .done labels
  | .str label =>
    advance
    return .yield (labels ++ [label])
  | .comma =>
    advance
    return .yield labels
  | _ => refuse "enum label"

/-- Reads what follows `CREATE TYPE`; only enumerations count. -/
def createType : Parser Statement := do
  let type ← qualifiedName "type name"
  if ← accept (isWord "AS") then
    if ← accept (isWord "ENUM") then
      expect .lparen "enum label list"
      return .createEnum { name := type, labels := ← iterate enumLabel [] }
  return .skipped

/-- Words between `CREATE` and what it creates. -/
def createModifiers : List String :=
  ["OR", "REPLACE", "GLOBAL", "LOCAL", "TEMP", "TEMPORARY", "UNLOGGED"]

/-- Drops one word between `CREATE` and what it creates. -/
def modifier (_ : Unit) : Parser (ForInStep Unit) := do
  if ← accept (isOneOf createModifiers) then return .yield ()
  return .done ()

/-- Drops the words between `CREATE` and what it creates. -/
def modifiers : Parser Unit :=
  iterate modifier ()

/-- Reads what follows `CREATE`. -/
def create (dialect : Dialect) : Parser Statement := do
  modifiers
  match ← current with
  | .keyword .table =>
    advance
    createTable dialect
  | .keyword .unique =>
    advance
    expect (.keyword .index) "INDEX"
    createIndex true
  | .keyword .index =>
    advance
    createIndex false
  | .keyword .sequence =>
    advance
    createSequence
  | t =>
    if isWord "TYPE" t then
      advance
      createType
    else return .skipped

/-- The action that adding a constraint is. -/
def TableConstraint.action? : TableConstraint → Option AlterAction
  | .primaryKey columns => some (.addPrimaryKey columns)
  | .unique u => some (.addUnique u)
  | .foreignKey fk => some (.addForeignKey fk)
  | .index i => some (.addIndex i)
  | .ignored => none

/-- Reads what is added to a table: a constraint, which may have a name by now, or a column. -/
def addition (dialect : Dialect) (table : String) (constraint : Option String) :
    Parser (Option AlterAction) := do
  match ← current with
  | .keyword .primary | .keyword .unique | .keyword .foreign | .keyword .check =>
    return TableConstraint.action? (← tableConstraint constraint)
  | .keyword .index | .keyword .key =>
    advance
    return some (.addIndex (← indexBody))
  | _ =>
    discard <| accept (isWord "COLUMN")
    discard skipIfExists
    return some (.addColumn (← column dialect table))

/-- Reads what follows `ADD`. -/
def alterAdd (dialect : Dialect) (table : String) : Parser (Option AlterAction) := do
  let constraint ←
    if ← accept (· == .keyword .constraint) then some <$> name "constraint name" else pure none
  addition dialect table constraint

/-- Reads what follows `ALTER` inside `ALTER TABLE`; only a new default counts. -/
def alterColumn : Parser (Option AlterAction) := do
  discard <| accept (isWord "COLUMN")
  let target ← name "column name"
  if isWord "SET" (← current) && (← peek 1) == .keyword .default then
    advance
    advance
    return some (.setDefault target (← defaultExpression))
  skipElement
  return none

/-- Reads one part of an `ALTER TABLE`. -/
def alterElement (dialect : Dialect) (table : String) (actions : List AlterAction) :
    Parser (ForInStep (List AlterAction)) := do
  match ← current with
  | .eof => return .done actions
  | .comma | .rparen =>
    advance
    return .yield actions
  | .keyword .add =>
    advance
    return .yield (actions ++ (← alterAdd dialect table).toList)
  | .keyword .alter =>
    advance
    return .yield (actions ++ (← alterColumn).toList)
  | _ =>
    skipElement
    return .yield actions

/-- Reads the parts of an `ALTER TABLE`. -/
def alterParts (dialect : Dialect) (table : String) : Parser Statement := do
  return .change (.alter table (← iterate (alterElement dialect table) []))

/-- Reads what follows `ALTER`; only tables count. -/
def alter (dialect : Dialect) : Parser Statement := do
  if ← accept (· == .keyword .table) then
    discard skipIfExists
    discard <| accept (· == .keyword .only)
    alterParts dialect (← qualifiedName "table name")
  else return .skipped

/-- Reads a statement from its first word on. -/
def statement (dialect : Dialect) : Parser Statement := do
  match ← current with
  | .keyword .create =>
    advance
    create dialect
  | .keyword .alter =>
    advance
    alter dialect
  | _ => return .skipped

end Parser

/-- The statement that a run of tokens is. -/
def Statement.parse (dialect : Dialect) (tokens : List Token) : Except SyntaxError Statement :=
  (·.1) <$> (Parser.statement dialect).run tokens

end CrudGen.Sql
