import CrudGen.Catalog.Type
import CrudGen.Text.Basic
import CrudGen.Text.Case

/-!
# Dialects

A dialect decides what type names mean and nothing else. `detect` guesses it from words that occur
in a script; `TypeMeaning.ofName` is what a name means in it, and `TypeSizes.ofArgs` which of its size
parameters are kept.
-/

namespace CrudGen.Sql

/-- A family of database systems; `auto` asks for detection. -/
inductive Dialect where
  | auto | generic | postgres | mySql
  deriving DecidableEq, Repr, Inhabited

namespace Dialect

/-- The name of a dialect. -/
def name : Dialect → String
  | .auto => "auto"
  | .generic => "generic"
  | .postgres => "postgres"
  | .mySql => "mysql"

/-- The dialect of a name in any letter case; the error is the name in lower case. -/
def ofName (text : String) : Except String Dialect :=
  let lower := Text.toLower text
  if lower == "auto" then .ok .auto
  else if ["generic", "ansi"].contains lower then .ok .generic
  else if ["postgres", "postgresql", "pg"].contains lower then .ok .postgres
  else if ["mysql", "mariadb"].contains lower then .ok .mySql
  else .error lower

/-- What is said of a name that is no dialect. -/
def unknownMessage (lower : String) : String :=
  "unknown dialect '" ++ lower ++ "'"

/-- Words that point to PostgreSQL. -/
def postgresHints : List String :=
  ["serial", "text[]", "::", "timestamptz", "jsonb", "bytea", "nextval(", "as enum"]

/-- Words that point to MySQL. -/
def mySqlHints : List String :=
  ["auto_increment", "tinyint", "engine=", "unsigned", "`", "datetime", "longtext"]

/-- The dialect a script seems to be written in: by the header of a dump, or else by the larger
number of hints. -/
def detect (script : String) : Dialect :=
  let lower := (Text.toLower script).toList
  let occurs (hint : String) : Bool := Text.occursIn hint.toList lower
  if occurs "postgresql database dump" || occurs "pg_dump" then .postgres
  else if occurs "mysql dump" || occurs "mysqldump" then .mySql
  else
    let postgres := postgresHints.countP occurs
    let mySql := mySqlHints.countP occurs
    if mySql < postgres then .postgres
    else if postgres < mySql then .mySql
    else .generic

/-- A concrete dialect for a script. -/
def resolve (d : Dialect) (script : String) : Dialect :=
  match d with
  | .auto => detect script
  | other => other

end Dialect

/-- The meaning of a type name. `autoIncrement` holds for names that imply a counter. -/
structure TypeMeaning where
  dataType : SqlType
  autoIncrement : Bool := false
  deriving DecidableEq, Repr, Inhabited

/-- Size parameters of a column. -/
structure TypeSizes where
  length : Option Nat := none
  precision : Option Nat := none
  scale : Option Nat := none
  deriving DecidableEq, Repr, Inhabited

/-- Words of a type name that do not change its meaning. -/
def isSignWord (word : String) : Bool :=
  ["unsigned", "signed", "zerofill"].contains word

/-- The meaning of a type name in lower case. `args` are its parameters, which count for a MySQL
`tinyint(1)` and for the size of a `float`. -/
def TypeMeaning.ofName (name : String) (args : List Nat) (dialect : Dialect) : TypeMeaning :=
  let words := (Text.words name).filter fun w => !isSignWord w
  let base := " ".intercalate words
  match base with
  | "serial" | "serial4" => { dataType := .integer, autoIncrement := true }
  | "bigserial" | "serial8" => { dataType := .bigInt, autoIncrement := true }
  | "smallserial" | "serial2" => { dataType := .smallInt, autoIncrement := true }
  | "tinyint" => { dataType := if dialect = .mySql ∧ args = [1] then .boolean else .smallInt }
  | "smallint" | "int2" | "year" => { dataType := .smallInt }
  | "int" | "integer" | "int4" | "mediumint" => { dataType := .integer }
  | "bigint" | "int8" => { dataType := .bigInt }
  | "decimal" | "numeric" | "dec" | "money" | "smallmoney" => { dataType := .decimal }
  | "real" | "float4" => { dataType := .real }
  | "float" =>
    match args with
    | size :: _ => { dataType := if size ≤ 24 then .real else .double }
    | [] => { dataType := if dialect = .mySql then .real else .double }
  | "double" | "double precision" | "float8" => { dataType := .double }
  | "boolean" | "bool" | "bit" => { dataType := .boolean }
  | "char" | "character" | "nchar" | "bpchar" => { dataType := .char }
  | "varchar" | "character varying" | "nvarchar" | "varchar2" | "citext" =>
    { dataType := .varchar }
  | "text" | "tinytext" | "mediumtext" | "longtext" | "ntext" | "clob" => { dataType := .text }
  | "date" => { dataType := .date }
  | "time" | "time without time zone" | "timetz" | "time with time zone" => { dataType := .time }
  | "timestamp" => { dataType := if dialect = .mySql then .timestampTz else .timestamp }
  | "timestamp without time zone" | "datetime" | "datetime2" | "smalldatetime" =>
    { dataType := .timestamp }
  | "timestamptz" | "timestamp with time zone" | "datetimeoffset" => { dataType := .timestampTz }
  | "interval" => { dataType := .interval }
  | "uuid" | "uniqueidentifier" => { dataType := .uuid }
  | "json" | "jsonb" => { dataType := .json }
  | "bytea" | "blob" | "tinyblob" | "mediumblob" | "longblob" | "binary" | "varbinary"
  | "image" => { dataType := .binary }
  | other => { dataType := .unknown other }

/-- The sizes that the parameters of a type give. -/
def TypeSizes.ofArgs (dataType : SqlType) (args : List Nat) : TypeSizes :=
  match dataType with
  | .char | .varchar | .binary => { length := args[0]? }
  | .decimal => { precision := args[0]?, scale := args[1]? }
  | .real | .double | .time | .timestamp | .timestampTz => { precision := args[0]? }
  | _ => {}

end CrudGen.Sql
