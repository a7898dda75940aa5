import CrudGen.Diagnostic
import CrudGen.Sql.Lexer
import CrudGen.Sql.Parser.Statement

/-!
# Building a catalog

Statements are collected in two passes. The first keeps definitions and puts aside the statements
that change a table. The second applies those changes, gives columns of enumerated types their
enumeration, and looks up what foreign keys refer to. A statement that fails leaves no trace but
its error.
-/

namespace CrudGen

open Text (sameName)
open Sql (TableChange TableDefinition PendingForeignKey AlterAction Statement)

/-- Why a statement that parses does not fit the catalog. -/
inductive Misfit where
  | duplicateTable (table : String)
  | unknownTable (table : String)
  | unknownColumn (column context : String)
  | duplicateColumn (column : String)
  | multiplePrimaryKeys (table : String)
  deriving DecidableEq, Repr, Inhabited

/-- The wording of a misfit. -/
def Misfit.message : Misfit → String
  | .duplicateTable table => "table `" ++ table ++ "` is declared more than once"
  | .unknownTable table => "unknown table `" ++ table ++ "`"
  | .unknownColumn column context => "unknown column `" ++ column ++ "` in " ++ context
  | .duplicateColumn column => "column `" ++ column ++ "` already exists"
  | .multiplePrimaryKeys table => "table `" ++ table ++ "` declares more than one primary key"

/-- Why a foreign key cannot be followed. -/
inductive Dangling where
  | undeclaredTable
  | noPrimaryKey
  | sizes (columns targetColumns : Nat)
  | unknownColumn (column : String)
  | junction
  deriving DecidableEq, Repr, Inhabited

/-- The wording of a dangling reference. -/
def Dangling.message : Dangling → String
  | .undeclaredTable => "table is not declared"
  | .noPrimaryKey => "referenced table has no primary key"
  | .sizes columns targetColumns =>
    toString columns ++ " column(s) reference " ++ toString targetColumns ++ " column(s)"
  | .unknownColumn column => "unknown column `" ++ column ++ "`"
  | .junction => "target is a junction table"

/-- Where a statement stands in its script. -/
structure Origin where
  number : Nat
  excerpt : String
  deriving DecidableEq, Repr, Inhabited

/-- The error of a statement. -/
def Origin.error (o : Origin) (reason : String) : StatementError :=
  { statement := o.number, excerpt := o.excerpt, reason }

/-- Everything read from a script. -/
structure Extraction where
  catalog : Catalog := {}
  errors : List StatementError := []
  unresolved : List UnresolvedReference := []
  deriving DecidableEq, Repr, Inhabited

/-- Adds an enumeration unless there is one of that name. -/
def Catalog.addEnum (c : Catalog) (e : EnumType) : Catalog :=
  if c.enums.any (·.name == e.name) then c else { c with enums := c.enums ++ [e] }

/-- Adds a sequence unless there is one of that name. -/
def Catalog.addSequence (c : Catalog) (s : Sequence) : Catalog :=
  if c.sequences.any (·.name == s.name) then c else { c with sequences := c.sequences ++ [s] }

/-- Changes the first element that `p` holds of. -/
def modifyFirst (p : α → Bool) (f : α → α) : List α → List α
  | [] => []
  | a :: rest => if p a then f a :: rest else a :: modifyFirst p f rest

/-- Changes the table of a name. -/
def Catalog.modifyTable (c : Catalog) (name : String) (f : Table → Table) : Catalog :=
  { c with tables := modifyFirst (fun t => sameName t.name name) f c.tables }

/-- A catalog under construction: `pending` are references with the table they stand in, `changes`
the statements that were put aside. -/
structure Draft where
  catalog : Catalog := {}
  errors : List StatementError := []
  pending : List (String × PendingForeignKey) := []
  changes : List (Origin × TableChange) := []
  deriving Inhabited

namespace Draft

/-- Notes an error. -/
def addError (d : Draft) (e : StatementError) : Draft :=
  { d with errors := d.errors ++ [e] }

/-- Adds a table, unless there is one of that name. Asking for a table only if it does not exist
is no error. -/
def addTable (d : Draft) (origin : Origin) (t : TableDefinition) : Draft :=
  if (d.catalog.table? t.table.name).isSome then
    if t.ifNotExists then d
    else d.addError (origin.error (Misfit.duplicateTable t.table.name).message)
  else
    let catalog := t.inlineEnums.foldl Catalog.addEnum d.catalog
    { d with
      catalog := { catalog with tables := catalog.tables ++ [t.table] }
      pending := d.pending ++ t.foreignKeys.map fun fk => (t.table.name, fk) }

/-- The first pass over one statement. -/
def add (d : Draft) (origin : Origin) : Statement → Draft
  | .createTable definition => d.addTable origin definition
  | .createSequence s => { d with catalog := d.catalog.addSequence s }
  | .createEnum e => { d with catalog := d.catalog.addEnum e }
  | .change c => { d with changes := d.changes ++ [(origin, c)] }
  | .skipped => d

end Draft

/-- Columns in their declared spelling, required by `context`. -/
def Table.requireColumns (t : Table) (columns : List String) (context : String) :
    Except Misfit (List String) :=
  (t.declaredColumns columns).mapError fun column => .unknownColumn column context

/-- A table with the actions of one statement applied so far, and what they add elsewhere. -/
structure Staged where
  table : Table
  foreignKeys : List PendingForeignKey := []
  enums : List EnumType := []
  deriving Inhabited

/-- Applies one action. -/
def Staged.act (s : Staged) : AlterAction → Except Misfit Staged
  | .addColumn d => do
    if s.table.hasColumn d.column.name then throw (.duplicateColumn d.column.name)
    return {
      table := { s.table with columns := s.table.columns ++ [d.column] }
      foreignKeys := s.foreignKeys ++ d.foreignKey.toList
      enums := s.enums ++ d.inlineEnum.toList }
  | .addForeignKey fk => do
    let columns ← s.table.requireColumns fk.columns "FOREIGN KEY"
    return { s with foreignKeys := s.foreignKeys ++ [{ fk with columns }] }
  | .addUnique u => do
    let columns ← s.table.requireColumns u.columns "UNIQUE"
    return { s with table := { s.table with uniques := s.table.uniques ++ [{ u with columns }] } }
  | .addPrimaryKey columns => do
    let columns ← s.table.requireColumns columns "PRIMARY KEY"
    if !s.table.primaryKey.isEmpty && s.table.primaryKey != columns then
      throw (.multiplePrimaryKeys s.table.name)
    return { s with table := Sql.Parser.markPrimaryKey { s.table with primaryKey := columns } }
  | .addIndex i => do
    let columns ← s.table.requireColumns i.columns "INDEX"
    return { s with table := { s.table with indexes := s.table.indexes ++ [{ i with columns }] } }
  | .setDefault column expression => do
    if !s.table.hasColumn column then throw (.unknownColumn column "ALTER COLUMN")
    let change (c : Column) : Column :=
      { c with
        default := some expression
        autoIncrement := c.autoIncrement || Sql.Parser.drawsFromSequence expression }
    return { s with table := { s.table with
      columns := modifyFirst (fun c => sameName c.name column) change s.table.columns } }

/-- Applies a change to a catalog; also the references it adds. All actions of a statement apply,
or none. -/
def TableChange.apply (catalog : Catalog) :
    TableChange → Except Misfit (Catalog × List (String × PendingForeignKey))
  | .index table index => do
    let some t := catalog.table? table | throw (.unknownTable table)
    match index with
    | none => return (catalog, [])
    | some i =>
      let columns ← t.requireColumns i.columns "CREATE INDEX"
      return (catalog.modifyTable table fun t =>
        { t with indexes := t.indexes ++ [{ i with columns }] }, [])
  | .alter table actions => do
    let some t := catalog.table? table | throw (.unknownTable table)
    let s ← actions.foldlM Staged.act { table := t }
    let changed := catalog.modifyTable table fun _ => s.table
    return (s.enums.foldl Catalog.addEnum changed, s.foreignKeys.map fun fk => (s.table.name, fk))

/-- A type with the enumeration its name stands for. -/
def SqlType.withEnums (names : List String) : SqlType → SqlType
  | .array element => .array (element.withEnums names)
  | .unknown name =>
    match names.find? (sameName · name) with
    | some found => .enum found
    | none => .unknown name
  | other => other

/-- A catalog whose columns of enumerated types have their enumeration. -/
def Catalog.withEnumColumns (c : Catalog) : Catalog :=
  let names := c.enums.map (·.name)
  { c with tables := c.tables.map fun t =>
      { t with columns := t.columns.map fun col =>
          { col with dataType := col.dataType.withEnums names } } }

/-- The foreign key that a reference is, once its target is looked up. -/
def PendingForeignKey.resolve (catalog : Catalog) (fk : PendingForeignKey) :
    Except Dangling ForeignKey := do
  let some target := catalog.table? fk.targetTable | throw .undeclaredTable
  let wanted := fk.targetColumns.getD target.primaryKey
  if wanted.isEmpty then throw .noPrimaryKey
  if wanted.length != fk.columns.length then throw (.sizes fk.columns.length wanted.length)
  let targetColumns ← (target.declaredColumns wanted).mapError .unknownColumn
  return { fk with targetTable := target.name, targetColumns }

namespace Draft

/-- The second pass over one change. -/
def applyChange (d : Draft) (origin : Origin) (change : TableChange) : Draft :=
  match TableChange.apply d.catalog change with
  | .ok (catalog, pending) => { d with catalog, pending := d.pending ++ pending }
  | .error misfit => d.addError (origin.error misfit.message)

/-- Follows one reference and stores it in the table it stands in, or reports it. -/
def follow (x : Extraction) (table : String) (fk : PendingForeignKey) : Extraction :=
  match PendingForeignKey.resolve x.catalog fk with
  | .ok resolved =>
    { x with catalog := x.catalog.modifyTable table fun t =>
        { t with foreignKeys := t.foreignKeys ++ [resolved] } }
  | .error dangling =>
    { x with unresolved := x.unresolved ++
        [{ table, columns := fk.columns, target := fk.targetTable, reason := dangling.message }] }

/-- The second pass over changes, in their order. -/
def applyChanges (d : Draft) (changes : List (Origin × TableChange)) : Draft :=
  changes.foldl (fun d (origin, change) => d.applyChange origin change) d

/-- Follows references in their order. -/
def followAll (x : Extraction) (pending : List (String × PendingForeignKey)) : Extraction :=
  pending.foldl (fun x (table, fk) => follow x table fk) x

/-- The second pass. -/
def finish (d : Draft) : Extraction :=
  let applied := d.applyChanges d.changes
  followAll { catalog := applied.catalog.withEnumColumns, errors := applied.errors } applied.pending

/-- Adds a statement from its tokens, or notes why it does not parse. -/
def addTokens (d : Draft) (dialect : Sql.Dialect) (origin : Origin) (tokens : List Sql.Token) :
    Draft :=
  match Statement.parse dialect tokens with
  | .ok s => d.add origin s
  | .error e => d.addError (origin.error e.message)

/-- The first pass over statements, in their order. -/
def addAll (d : Draft) (dialect : Sql.Dialect) (statements : List (Origin × List Sql.Token)) :
    Draft :=
  statements.foldl (fun d (origin, tokens) => d.addTokens dialect origin tokens) d

end Draft

/-! ### Reading a script

`Extraction.ofScript` goes from the text of a script to its catalog. Every statement is read on its
own, so one that fails does not keep the others from contributing.
-/

/-- The catalog that statements, each with its origin, make up in a dialect. -/
def Extraction.ofStatements (dialect : Sql.Dialect) (statements : List (Origin × List Sql.Token)) :
    Extraction :=
  (({} : Draft).addAll dialect statements).finish

/-- Statements, each an excerpt and its tokens, with their numbers. -/
def numbered (statements : List (String × List Sql.Token)) : List (Origin × List Sql.Token) :=
  statements.mapIdx fun i (excerpt, tokens) => ({ number := i + 1, excerpt }, tokens)

/-- The statements of a script with their origins. -/
def originsOf (script : String) : List (Origin × List Sql.Token) :=
  let cs := script.toList
  numbered <| (Sql.statements (Sql.Lexer.tokenize script)).map fun run =>
    (Sql.excerpt cs run, run.map (·.token))

/-- Everything read from a script in a dialect, which is guessed if it is `auto`. -/
def Extraction.ofScript (script : String) (dialect : Sql.Dialect) : Extraction :=
  .ofStatements (dialect.resolve script) (originsOf script)

end CrudGen
