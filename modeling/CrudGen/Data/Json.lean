/-!
# JSON

Values of JSON as far as generated projects need them, and their text with two blanks to a step.
-/

namespace CrudGen

/-- A value. The members of an object keep their order. -/
inductive JsonValue where
  | text (s : String)
  | number (n : Nat)
  | list (items : List JsonValue)
  | object (members : List (String × JsonValue))
  deriving Repr, Inhabited

namespace JsonValue

/-- A list of texts. -/
def texts (items : List String) : JsonValue :=
  .list (items.map .text)

/-- A digit of base sixteen. -/
def hexDigit (n : Nat) : Char :=
  if n < 10 then Char.ofNat ('0'.toNat + n) else Char.ofNat ('a'.toNat + n - 10)

/-- A character as it is written inside a text. -/
def escape (c : Char) : List Char :=
  if c == '"' then ['\\', '"']
  else if c == '\\' then ['\\', '\\']
  else if c == '\x08' then ['\\', 'b']
  else if c == '\x0c' then ['\\', 'f']
  else if c == '\n' then ['\\', 'n']
  else if c == '\r' then ['\\', 'r']
  else if c == '\t' then ['\\', 't']
  else if c.toNat < 32 then
    ['\\', 'u', '0', '0', hexDigit (c.toNat / 16), hexDigit (c.toNat % 16)]
  else [c]

/-- A text between quotes. -/
def quoted (s : String) : String :=
  String.ofList ('"' :: s.toList.flatMap escape ++ ['"'])

/-- Items on lines of their own between brackets. -/
def enclosedLines (indent left right : String) (items : List String) : String :=
  if items.isEmpty then left ++ right
  else
    left ++ "\n" ++ ",\n".intercalate (items.map (indent ++ "  " ++ ·)) ++ "\n" ++ indent ++ right

mutual

/-- The text of a value whose lines after the first stand behind `indent`. -/
def pretty (indent : String) : JsonValue → String
  | .text s => quoted s
  | .number n => toString n
  | .list items => enclosedLines indent "[" "]" (prettyItems (indent ++ "  ") items)
  | .object members => enclosedLines indent "\x7b" "\x7d" (prettyMembers (indent ++ "  ") members)

/-- The texts of the items of a list. -/
def prettyItems (indent : String) : List JsonValue → List String
  | [] => []
  | v :: rest => pretty indent v :: prettyItems indent rest

/-- The texts of the members of an object. -/
def prettyMembers (indent : String) : List (String × JsonValue) → List String
  | [] => []
  | (name, v) :: rest => (quoted name ++ ": " ++ pretty indent v) :: prettyMembers indent rest

end

end JsonValue

end CrudGen
