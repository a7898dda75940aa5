/-!
# Canonical column types

`SqlType` is what a declared type name means. `key` is the row of a target's type table that maps
it.
-/

namespace CrudGen

/-- The meaning of a declared type. -/
inductive SqlType where
  | smallInt | integer | bigInt | decimal | real | double | boolean | char | varchar | text
  | date | time | timestamp | timestampTz | interval | uuid | json | binary
  /-- An enumeration, declared as a type of its own or in the column. -/
  | enum (name : String)
  | array (element : SqlType)
  /-- A type name that means nothing here; kept as its words. -/
  | unknown (name : String)
  deriving DecidableEq, Repr, Inhabited

namespace SqlType

/-- Keys of the scalar types, in table order. A target maps or declines every one of them. -/
def scalarKeys : List String :=
  ["smallint", "integer", "bigint", "decimal", "real", "double", "boolean", "char", "varchar",
    "text", "date", "time", "timestamp", "timestamptz", "interval", "uuid", "json", "binary",
    "enum"]

/-- The row of a type table that a type belongs to. -/
def key : SqlType → String
  | .smallInt => "smallint"
  | .integer => "integer"
  | .bigInt => "bigint"
  | .decimal => "decimal"
  | .real => "real"
  | .double => "double"
  | .boolean => "boolean"
  | .char => "char"
  | .varchar => "varchar"
  | .text => "text"
  | .date => "date"
  | .time => "time"
  | .timestamp => "timestamp"
  | .timestampTz => "timestamptz"
  | .interval => "interval"
  | .uuid => "uuid"
  | .json => "json"
  | .binary => "binary"
  | .enum _ => "enum"
  | .array _ => "array"
  | .unknown name => name

/-- How a type is shown. -/
def display : SqlType → String
  | .enum name => "enum " ++ name
  | .array element => element.display ++ "[]"
  | other => other.key

/-- The type inside any number of array layers. -/
def innermost : SqlType → SqlType
  | .array element => element.innermost
  | other => other

/-- A whole-number type. -/
def isInteger : SqlType → Bool
  | .smallInt | .integer | .bigInt => true
  | _ => false

/-- A type that holds text. -/
def isTextual : SqlType → Bool
  | .char | .varchar | .text => true
  | _ => false

end SqlType

end CrudGen
