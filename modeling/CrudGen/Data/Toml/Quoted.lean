import CrudGen.Data.Toml.Number

/-!
# Texts of TOML

Texts in double quotes have escapes, texts in single quotes have none; between three quotes each
they may have several lines. Each reader takes the characters from its place on and gives what it
read with the characters that are left, or nothing if the text is malformed there.
-/

namespace CrudGen.Toml

/-- Drops blanks on a line. -/
def skipBlanks (cs : List Char) : List Char :=
  cs.dropWhile fun c => c == ' ' || c == '\t'

/-- Drops blanks and line ends. -/
def skipBlankLines : List Char → List Char
  | [] => []
  | '\r' :: '\n' :: rest => skipBlankLines rest
  | c :: rest => if c == ' ' || c == '\t' || c == '\n' then skipBlankLines rest else c :: rest

/-- Whether a character may stand in comments and on a line of text. -/
def isPlain (c : Char) : Bool :=
  c == '\t' || (0x20 ≤ c.toNat && c.toNat != 0x7F)

/-- The character of a code point in hexadecimal. -/
def codePoint? (digits : List Char) : Option Char := do
  let n := numeral 16 (← digits.mapM hexDigit?)
  if n.isValidChar then some (Char.ofNat n) else none

/-- Reads what follows a backslash. -/
def escape : List Char → Option (Char × List Char)
  | 'b' :: rest => some ('\x08', rest)
  | 't' :: rest => some ('\t', rest)
  | 'n' :: rest => some ('\n', rest)
  | 'f' :: rest => some ('\x0c', rest)
  | 'r' :: rest => some ('\r', rest)
  | '"' :: rest => some ('"', rest)
  | '\\' :: rest => some ('\\', rest)
  | 'u' :: rest =>
    if rest.length < 4 then none else (codePoint? (rest.take 4)).map fun c => (c, rest.drop 4)
  | 'U' :: rest =>
    if rest.length < 8 then none else (codePoint? (rest.take 8)).map fun c => (c, rest.drop 8)
  | _ => none

/-- Reads the rest of a text in double quotes. -/
def basicText : (fuel : Nat) → List Char → Option (List Char × List Char)
  | 0, _ => none
  | fuel + 1, cs =>
    match cs with
    | [] => none
    | '"' :: rest => some ([], rest)
    | '\\' :: rest => do
      let (c, rest) ← escape rest
      let (t, rest) ← basicText fuel rest
      return (c :: t, rest)
    | c :: rest => do
      if !isPlain c then none
      let (t, rest) ← basicText fuel rest
      return (c :: t, rest)

/-- Reads the rest of a text in single quotes. -/
def literalText : List Char → Option (List Char × List Char)
  | [] => none
  | '\'' :: rest => some ([], rest)
  | c :: rest => do
    if !isPlain c then none
    let (t, rest) ← literalText rest
    return (c :: t, rest)

/-- Splits off a line end. -/
def newline? : List Char → Option (List Char)
  | '\n' :: rest => some rest
  | '\r' :: '\n' :: rest => some rest
  | _ => none

/-- Reads the rest of a text between three marks each. Up to two marks may stand before the closing
ones; a line end is one character of the text, however it is written. -/
def longText (mark : Char) (escapes : Bool) :
    (fuel : Nat) → List Char → Option (List Char × List Char)
  | 0, _ => none
  | fuel + 1, cs =>
    if [mark, mark, mark].isPrefixOf cs then
      let marks := (cs.takeWhile (· == mark)).length
      if marks ≤ 5 then some (List.replicate (marks - 3) mark, cs.drop marks) else none
    else match newline? cs, cs with
      | some rest, _ => do
        let (t, rest) ← longText mark escapes fuel rest
        return ('\n' :: t, rest)
      | none, [] => none
      | none, c :: rest =>
        if c == '\\' && escapes then
          match newline? (skipBlanks rest) with
          | some more => longText mark escapes fuel (skipBlankLines more)
          | none => do
            let (d, rest) ← escape rest
            let (t, rest) ← longText mark escapes fuel rest
            return (d :: t, rest)
        else do
          if !isPlain c then none
          let (t, rest) ← longText mark escapes fuel rest
          return (c :: t, rest)

/-- Reads a text on one line, given from its opening quote on. -/
def shortText : List Char → Option (String × List Char)
  | '"' :: rest => (basicText (rest.length + 1) rest).map fun (t, rest) => (String.ofList t, rest)
  | '\'' :: rest => (literalText rest).map fun (t, rest) => (String.ofList t, rest)
  | _ => none

/-- Reads the rest of a text of several lines; a line end right after the opening marks is no part
of it. -/
def paragraphs (mark : Char) (escapes : Bool) (cs : List Char) : Option (String × List Char) :=
  (longText mark escapes (cs.length + 1) ((newline? cs).getD cs)).map fun (t, rest) =>
    (String.ofList t, rest)

/-- Reads a text, given from its opening quote on. -/
def anyText : List Char → Option (String × List Char)
  | '"' :: '"' :: '"' :: rest => paragraphs '"' true rest
  | '\'' :: '\'' :: '\'' :: rest => paragraphs '\'' false rest
  | cs => shortText cs

end CrudGen.Toml
