import CrudGen.Entity.Basic
import CrudGen.Text.Basic

/-!
# SQL statements

The statements that servers with SQL text of their own run for an entity. Names are quoted, values
are bound to numbered parameters.
-/

namespace CrudGen.Sql

/-- A name between double quotes; quotes inside are doubled. -/
def quoteName (name : String) : String :=
  Text.enclosed '"' name

/-- Names with commas between them. -/
def nameList (names : List String) : String :=
  ", ".intercalate (names.map quoteName)

/-- The parameter of a number. -/
def parameter (n : Nat) : String :=
  "$" ++ toString n

/-- Compares each column with a parameter, numbered from `first` on. -/
def predicate (qualifier : String) (columns : List String) (first : Nat) : String :=
  " AND ".intercalate (columns.mapIdx fun i c =>
    qualifier ++ quoteName c ++ " = " ++ parameter (first + i))

/-- The statements of an entity. Those that address one row need a primary key, and `update` also
needs a column to set. -/
structure Statements where
  list : String
  count : String
  find : Option String
  insert : String
  /-- Its parameters are the inputs in order and then the key. -/
  update : Option String
  delete : Option String
  deriving DecidableEq, Repr, Inhabited

/-- The statements of an entity. With soft deletion, rows that are marked as deleted are left out,
and deleting marks a row. -/
def Statements.ofEntity (e : Entity) (paginate softDelete : Bool) : Statements :=
  let table := quoteName e.table.name
  let inputs := e.inputFields.map (·.column)
  let keys := e.keyFields.map (·.column)
  let returning := nameList (e.fields.map (·.column))
  let marker := if softDelete then e.softDeleteField? else none
  let live (before : String) : String :=
    match marker with
    | some f => before ++ quoteName f.column ++ " IS NULL"
    | none => ""
  let order := if keys.isEmpty then "" else " ORDER BY " ++ nameList keys
  let page := if paginate then " LIMIT $1 OFFSET $2" else ""
  let keyed (statement : String) : Option String :=
    if keys.isEmpty then none else some statement
  let insert :=
    if inputs.isEmpty then "INSERT INTO " ++ table ++ " DEFAULT VALUES RETURNING " ++ returning
    else
      "INSERT INTO " ++ table ++ " (" ++ nameList inputs ++ ") VALUES ("
        ++ ", ".intercalate (inputs.mapIdx fun i _ => parameter (i + 1)) ++ ") RETURNING "
        ++ returning
  let assignments := inputs.mapIdx fun i c =>
    quoteName c ++ " = COALESCE(" ++ parameter (i + 1) ++ ", " ++ quoteName c ++ ")"
  let update :=
    "UPDATE " ++ table ++ " SET " ++ ", ".intercalate assignments ++ " WHERE "
      ++ predicate "" keys (inputs.length + 1) ++ live " AND " ++ " RETURNING " ++ returning
  let delete :=
    match marker with
    | some f =>
      "UPDATE " ++ table ++ " SET " ++ quoteName f.column ++ " = now() WHERE "
        ++ predicate "" keys 1 ++ live " AND "
    | none => "DELETE FROM " ++ table ++ " WHERE " ++ predicate "" keys 1
  { list := "SELECT " ++ returning ++ " FROM " ++ table ++ live " WHERE " ++ order ++ page
    count := "SELECT COUNT(*) FROM " ++ table ++ live " WHERE "
    find := keyed ("SELECT " ++ returning ++ " FROM " ++ table ++ " WHERE "
      ++ predicate "" keys 1 ++ live " AND ")
    insert
    update := if inputs.isEmpty then none else keyed update
    delete := keyed delete }

/-- Loads the rows on the other side of a relation. Its parameters are this side's columns. -/
def related (r : Relation) : String :=
  let target := quoteName r.targetTable
  match r.via with
  | some junction =>
    let pairs := (junction.remoteColumns.zip r.remoteColumns).map fun (j, t) =>
      "j." ++ quoteName j ++ " = t." ++ quoteName t
    "SELECT t.* FROM " ++ target ++ " t JOIN " ++ quoteName junction.table ++ " j ON "
      ++ " AND ".intercalate pairs ++ " WHERE " ++ predicate "j." junction.localColumns 1
  | none => "SELECT t.* FROM " ++ target ++ " t WHERE " ++ predicate "t." r.remoteColumns 1

end CrudGen.Sql
