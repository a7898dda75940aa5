import CrudGen.Data.Toml.Number

/-!
# Dates and times of TOML

A `Moment` is a date, a time of day, or a date with a time that may have an offset from universal
time. `Moment.read?` reads one and `Moment.text` is its canonical text: a letter `T` between date
and time, a fraction of at most nine digits without zeros at its end.
-/

namespace CrudGen.Toml

/-- A day of the calendar. -/
structure Date where
  year : Nat
  month : Nat
  day : Nat
  deriving DecidableEq, Repr, Inhabited

/-- A time of day. A second may be a leap second. -/
structure Time where
  hour : Nat
  minute : Nat
  second : Nat
  /-- The digits after the point. -/
  fraction : List Char := []
  deriving DecidableEq, Repr, Inhabited

/-- The offset of a time from universal time. -/
inductive Offset where
  /-- None, written as a letter. -/
  | universal
  | minutes (m : Int)
  deriving DecidableEq, Repr, Inhabited

/-- A date, a time of day or both. -/
inductive Moment where
  | date (d : Date)
  | time (t : Time)
  | dateTime (d : Date) (t : Time) (offset : Option Offset)
  deriving DecidableEq, Repr, Inhabited

/-- Whether February has 29 days. -/
def isLeapYear (year : Nat) : Bool :=
  year % 4 = 0 && (year % 100 ≠ 0 || year % 400 = 0)

/-- The days of a month. -/
def daysOf (year month : Nat) : Nat :=
  if month = 2 then (if isLeapYear year then 29 else 28)
  else if [4, 6, 9, 11].contains month then 30 else 31

/-- Reads a number of so many digits that lies between two bounds. -/
def field? (width low high : Nat) (cs : List Char) : Option (Nat × List Char) := do
  let digits ← (cs.take width).mapM fun c => (hexDigit? c).filter (· < 10)
  let n := numeral 10 digits
  guard (digits.length = width && low ≤ n && n ≤ high)
  return (n, cs.drop width)

/-- Reads a field behind a mark. -/
def markedField? (mark : Char) (width low high : Nat) : List Char → Option (Nat × List Char)
  | c :: rest => if c = mark then field? width low high rest else none
  | [] => none

/-- Reads a date. -/
def Date.read? (cs : List Char) : Option (Date × List Char) := do
  let (year, rest) ← field? 4 0 9999 cs
  let (month, rest) ← markedField? '-' 2 1 12 rest
  let (day, rest) ← markedField? '-' 2 1 (daysOf year month) rest
  return (⟨year, month, day⟩, rest)

/-- Reads a time of day. -/
def Time.read? (cs : List Char) : Option (Time × List Char) := do
  let (hour, rest) ← field? 2 0 23 cs
  let (minute, rest) ← markedField? ':' 2 0 59 rest
  let (second, rest) ← markedField? ':' 2 0 60 rest
  let fraction :=
    match rest with
    | '.' :: more => more.takeWhile Char.isDigit
    | _ => []
  return (⟨hour, minute, second, fraction⟩,
    if fraction.isEmpty then rest else rest.drop (fraction.length + 1))

/-- Reads an offset. -/
def Offset.read? : List Char → Option (Offset × List Char)
  | 'Z' :: rest | 'z' :: rest => some (.universal, rest)
  | '+' :: rest => (distance? rest).map fun (m, rest) => (.minutes m, rest)
  | '-' :: rest => (distance? rest).map fun (m, rest) => (.minutes (-m), rest)
  | _ => none
where
  /-- Reads hours and minutes. -/
  distance? (cs : List Char) : Option (Nat × List Char) := do
    let (hour, rest) ← field? 2 0 23 cs
    let (minute, rest) ← markedField? ':' 2 0 59 rest
    return (60 * hour + minute, rest)

/-- Reads the time behind a date, if there is one. -/
def Moment.afterDate (d : Date) (cs : List Char) : Moment × List Char :=
  let time? : Option (Time × List Char) :=
    match cs with
    | 'T' :: rest | 't' :: rest | ' ' :: rest => Time.read? rest
    | _ => none
  match time? with
  | none => (.date d, cs)
  | some (t, rest) =>
    match Offset.read? rest with
    | none => (.dateTime d t none, rest)
    | some (offset, rest) => (.dateTime d t (some offset), rest)

/-- Reads a moment. -/
def Moment.read? (cs : List Char) : Option (Moment × List Char) :=
  match Date.read? cs with
  | some (d, rest) => some (afterDate d rest)
  | none => (Time.read? cs).map fun (t, rest) => (.time t, rest)

/-- A number in so many digits. -/
def padded (width n : Nat) : List Char :=
  let digits := Nat.toDigits 10 n
  List.replicate (width - digits.length) '0' ++ digits

/-- The text of a date. -/
def Date.text (d : Date) : List Char :=
  padded 4 d.year ++ '-' :: padded 2 d.month ++ '-' :: padded 2 d.day

/-- The text of a time of day. -/
def Time.text (t : Time) : List Char :=
  let fraction := ((t.fraction.take 9).reverse.dropWhile (· == '0')).reverse
  padded 2 t.hour ++ ':' :: padded 2 t.minute ++ ':' :: padded 2 t.second
    ++ if fraction.isEmpty then [] else '.' :: fraction

/-- The text of an offset. -/
def Offset.text : Offset → List Char
  | .universal => ['Z']
  | .minutes m =>
    (if m < 0 then '-' else '+') :: padded 2 (m.natAbs / 60) ++ ':' :: padded 2 (m.natAbs % 60)

/-- The canonical text of a moment. -/
def Moment.text : Moment → String
  | .date d => String.ofList d.text
  | .time t => String.ofList t.text
  | .dateTime d t offset =>
    String.ofList (d.text ++ 'T' :: t.text ++ (offset.map Offset.text).getD [])

end CrudGen.Toml
