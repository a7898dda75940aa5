import CrudGen.Catalog.Basic
import CrudGen.Target.Profile

/-!
# Types of a target

`TargetType.ofColumn` spells the type of a column in a target. It always has an answer: a type that
the target declines, or that is not known, takes the fallback.
-/

namespace CrudGen

/-- The type of a column in a target. `name` is the whole spelling, `inner` the one without null,
`base` the one of the innermost element. -/
structure TargetType where
  name : String
  inner : String
  base : String
  nullable : Bool
  array : Bool
  length : Option Nat
  precision : Option Nat
  scale : Option Nat
  fallback : Bool
  deriving DecidableEq, Repr, Inhabited

/-- The spelling of a type without null, that of its innermost element, and whether the fallback
was taken. -/
def Conventions.spell (c : Conventions) : SqlType → String × String × Bool
  | .array element =>
    let (inner, base, fallback) := c.spell element
    (fillTemplate c.array inner, base, fallback)
  | scalar =>
    match c.types.get? scalar.key with
    | some type =>
      if c.unsupported.contains scalar.key then (c.fallback, c.fallback, true)
      else (type, type, false)
    | none => (c.fallback, c.fallback, true)

/-- Whether a type is an array. -/
def SqlType.isArray : SqlType → Bool
  | .array _ => true
  | _ => false

/-- The type of a column. A precision is kept only for decimals with a fixed point. -/
def TargetType.ofColumn (c : Conventions) (column : Column) : TargetType :=
  let (inner, base, fallback) := c.spell column.dataType
  let nullable := column.nullable && !column.primaryKey
  let fixed := column.dataType == .decimal && c.decimal == .fixed
  { name := if nullable then c.nullable.apply inner else inner
    inner
    base
    nullable
    array := column.dataType.isArray
    length := column.length
    precision := if fixed then column.precision else none
    scale := if fixed then column.scale else none
    fallback }

end CrudGen
