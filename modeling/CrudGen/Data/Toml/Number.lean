import CrudGen.Text.Basic

/-!
# Numbers of TOML

Which words are numbers. Digits may be grouped by single underscores, whole numbers have to fit in
64 bits, and a positive number with a fraction or an exponent has to be smaller than the middle
between the largest finite number of 64 bits and the next power of two, from where on it would be
read as infinite.
-/

namespace CrudGen.Toml

/-- The value of a hexadecimal digit. -/
def hexDigit? (c : Char) : Option Nat :=
  if c.isDigit then some (c.toNat - '0'.toNat)
  else if 'a' ≤ c ∧ c ≤ 'f' then some (c.toNat - 'a'.toNat + 10)
  else if 'A' ≤ c ∧ c ≤ 'F' then some (c.toNat - 'A'.toNat + 10)
  else none

/-- The number that digits are in a base. -/
def numeral (base : Nat) (digits : List Nat) : Nat :=
  digits.foldl (fun n d => base * n + d) 0

/-- The digits of a base that a text is, grouped by single underscores. -/
def digits? (base : Nat) (cs : List Char) : Option (List Nat) :=
  let groups := Text.splitAll (· == '_') cs
  if groups.any List.isEmpty then none
  else groups.flatten.mapM fun c => (hexDigit? c).filter (· < base)

/-- The digits of a whole number in base ten, which starts with a zero only if it is one. -/
def wholeDigits? (cs : List Char) : Option (List Nat) :=
  match digits? 10 cs with
  | some (0 :: _ :: _) => none
  | ds => ds

/-- A text without a leading sign. -/
def dropSign : List Char → List Char
  | '+' :: rest => rest
  | '-' :: rest => rest
  | cs => cs

/-- Whether a text starts with a minus sign. -/
def isNegative (cs : List Char) : Bool :=
  cs.head? == some '-'

/-- The whole number that a text is. The other bases take no sign. -/
def whole? : List Char → Option Int
  | '0' :: 'x' :: rest => (digits? 16 rest).map fun ds => numeral 16 ds
  | '0' :: 'o' :: rest => (digits? 8 rest).map fun ds => numeral 8 ds
  | '0' :: 'b' :: rest => (digits? 2 rest).map fun ds => numeral 2 ds
  | cs => (wholeDigits? (dropSign cs)).map fun ds =>
    if isNegative cs then -numeral 10 ds else numeral 10 ds

/-- Whether a text is a whole number of 64 bits. -/
def isInteger (cs : List Char) : Bool :=
  match whole? cs with
  | some n => -Text.integerLimit ≤ n && n < Text.integerLimit
  | none => false

/-- A number without a sign: `mantissa` times ten to the power `exponent`. -/
structure Decimal where
  mantissa : Nat
  exponent : Int
  deriving DecidableEq, Repr, Inhabited

/-- The smallest number that is read as infinite. -/
def Decimal.ceiling : Nat :=
  Nat.pow 2 1024 - Nat.pow 2 970

/-- Whether a number is read as infinite. `Decimal.ceiling` has 309 digits, so that numbers with
fewer or more digits before the point need not be compared with it. -/
def Decimal.isInfinite (d : Decimal) : Bool :=
  let places : Int := (Nat.toDigits 10 d.mantissa).length + d.exponent
  if d.mantissa = 0 || places < 309 then false
  else if 309 < places then true
  else Decimal.ceiling * Nat.pow 10 (-d.exponent).toNat ≤ d.mantissa * Nat.pow 10 d.exponent.toNat

/-- The number with a fraction, an exponent or both that a text without a sign is. -/
def decimal? (cs : List Char) : Option Decimal := do
  match Text.splitAll (fun c => c == 'e' || c == 'E') cs with
  | [significand] =>
    guard (significand.contains '.')
    ofParts (← parts? significand) 0
  | [significand, power] =>
    let digits ← digits? 10 (dropSign power)
    ofParts (← parts? significand)
      (if isNegative power then -numeral 10 digits else numeral 10 digits)
  | _ => none
where
  /-- The digits before and after the point. -/
  parts? (cs : List Char) : Option (List Nat × List Nat) := do
    match Text.splitAll (· == '.') cs with
    | [whole] => return (← wholeDigits? whole, [])
    | [whole, fraction] => return (← wholeDigits? whole, ← digits? 10 fraction)
    | _ => none
  /-- The number with these digits and this power of ten. -/
  ofParts (parts : List Nat × List Nat) (power : Int) : Option Decimal :=
    some ⟨numeral 10 (parts.1 ++ parts.2), power - parts.2.length⟩

/-- Whether a text is a number with a fraction or an exponent; only a negative one may be
infinite. -/
def isDecimal (cs : List Char) : Bool :=
  match decimal? (dropSign cs) with
  | some d => isNegative cs || !d.isInfinite
  | none => false

/-- Whether a text is a number. -/
def isNumber (cs : List Char) : Bool :=
  isInteger cs || isDecimal cs || ["inf".toList, "nan".toList].contains (dropSign cs)

end CrudGen.Toml
