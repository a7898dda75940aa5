import CrudGen.Sql.Token
import CrudGen.Text.Basic
import CrudGen.Text.Case
import CrudGen.Text.Letter

/-!
# Reading tokens

`next c rest` reads what stands at the character `c`: a token, or nothing for blanks, comments and
characters that no token starts with; and how many characters of `rest` belong to it. Every step
therefore consumes `c`, and `tokenize` ends. An open quote, bracket or comment runs to the end of
the script.

A script is cut into statements at its semicolons. A statement is known by its number and by an
excerpt of its source.
-/

namespace CrudGen.Sql.Lexer

open CrudGen.Text

/-- The text of a quoted name and the characters read after its opening quote. A doubled quote
stands for one quote. -/
def quoted (quote : Char) : List Char → List Char × Nat
  | [] => ([], 0)
  | c :: rest =>
    if c = quote then
      match rest with
      | [] => ([], 1)
      | d :: more =>
        if d = quote then
          let (text, n) := quoted quote more
          (quote :: text, n + 2)
        else ([], 1)
    else
      let (text, n) := quoted quote rest
      (c :: text, n + 1)

/-- The character a backslash escape stands for. -/
def unescaped : Char → Char
  | 'n' => '\n'
  | 't' => '\t'
  | 'r' => '\r'
  | c => c

/-- The value of a string literal and the characters read after its opening quote. A doubled quote
stands for one quote, and a backslash escapes the character after it. -/
def literal : List Char → List Char × Nat
  | [] => ([], 0)
  | '\'' :: '\'' :: rest =>
    let (text, n) := literal rest
    ('\'' :: text, n + 2)
  | '\'' :: _ => ([], 1)
  | ['\\'] => ([], 1)
  | '\\' :: c :: rest =>
    let (text, n) := literal rest
    (unescaped c :: text, n + 2)
  | c :: rest =>
    let (text, n) := literal rest
    (c :: text, n + 1)

/-- The text of a bracketed name and the characters read after the opening bracket. -/
def bracketed : List Char → List Char × Nat
  | [] => ([], 0)
  | c :: rest =>
    if c = ']' then ([], 1)
    else
      let (text, n) := bracketed rest
      (c :: text, n + 1)

/-- The text up to the first occurrence of `delimiter` and the characters read, the delimiter
included; everything if there is none. -/
def upTo (delimiter : List Char) : List Char → List Char × Nat
  | [] => ([], 0)
  | c :: rest =>
    if delimiter.isPrefixOf (c :: rest) then ([], delimiter.length)
    else
      let (text, n) := upTo delimiter rest
      (c :: text, n + 1)

/-- What a dollar sign opens: a body between two equal tags, or nothing when no second dollar sign
ends the tag. -/
def dollarQuoted (rest : List Char) : Option (List Char) × Nat :=
  let tag := rest.takeWhile fun c => isAlphanumeric c || c == '_'
  match rest.drop tag.length with
  | '$' :: body =>
    let (text, n) := upTo ('$' :: tag ++ ['$']) body
    (some text, tag.length + 1 + n)
  | _ => (none, tag.length)

/-- The rest of a number: digits with at most one dot among them. -/
def number (dotted : Bool) : List Char → List Char
  | [] => []
  | c :: rest =>
    if c.isDigit then c :: number dotted rest
    else if c == '.' && !dotted then c :: number true rest
    else []

/-- The length of a comment up to the end of its line. -/
def lineComment : List Char → Nat
  | [] => 0
  | c :: rest => if c = '\n' then 1 else lineComment rest + 1

/-- The length of a comment up to its closing mark. -/
def blockComment : List Char → Nat
  | [] => 0
  | '*' :: '/' :: _ => 2
  | _ :: rest => blockComment rest + 1

/-- Characters that go on with a word. -/
def isWordChar (c : Char) : Bool :=
  isAlphanumeric c || c == '_' || c == '$'

/-- The token of a word: a keyword in any letter case, a self-numbering type, or a name. -/
def ofWord (word : String) : Token :=
  let upper := toUpper word
  match Keyword.ofUpper? upper with
  | some k => .keyword k
  | none => if Token.serialNames.contains upper then .serial upper else .ident word

/-- Symbols that are kept in expressions and mean nothing to the grammar. -/
def isOperator (c : Char) : Bool :=
  "=+*<>!|%&".toList.contains c

/-- The token that starts at `c`, if any, and how many characters of `rest` belong to it. -/
def next (c : Char) (rest : List Char) : Option Token × Nat :=
  if isBlank c then (none, 0)
  else match c with
  | '-' =>
    match rest with
    | '-' :: more => (none, lineComment more + 1)
    | d :: _ =>
      if d.isDigit then
        let digits := number false rest
        (some (.num (String.ofList ('-' :: digits))), digits.length)
      else (some (.op '-'), 0)
    | [] => (some (.op '-'), 0)
  | '/' =>
    match rest with
    | '*' :: more => (none, blockComment more + 1)
    | _ => (some (.op '/'), 0)
  | '#' => (none, lineComment rest)
  | ':' =>
    match rest with
    | ':' :: _ => (some .doubleColon, 1)
    | _ => (none, 0)
  | '(' => (some .lparen, 0)
  | ')' => (some .rparen, 0)
  | ',' => (some .comma, 0)
  | ';' => (some .semicolon, 0)
  | '.' => (some .dot, 0)
  | '[' =>
    match rest with
    | ']' :: _ => (some .brackets, 1)
    | _ =>
      let (text, n) := bracketed rest
      (some (.ident (String.ofList text)), n)
  | '\'' =>
    let (text, n) := literal rest
    (some (.str (String.ofList text)), n)
  | '$' =>
    let (body, n) := dollarQuoted rest
    (body.map fun text => .str (String.ofList text), n)
  | _ =>
    if c = '"' || c = '`' then
      let (text, n) := quoted c rest
      (some (.ident (String.ofList text)), n)
    else if c.isDigit then
      let digits := number false (c :: rest)
      (some (.num (String.ofList digits)), digits.length - 1)
    else if isAlphabetic c || c == '_' then
      let tail := rest.takeWhile isWordChar
      (some (ofWord (String.ofList (c :: tail))), tail.length)
    else if isOperator c then (some (.op c), 0)
    else (none, 0)

/-- The bytes that characters take in UTF-8. -/
def byteLength : List Char → Nat
  | [] => 0
  | c :: rest => c.utf8Size + byteLength rest

/-- The tokens of the characters that follow the byte offset `start`, ended by one `eof`. -/
def scan (start : Nat) : List Char → List Located
  | [] => [⟨.eof, start, start⟩]
  | c :: rest =>
    let (token, n) := next c rest
    let stop := start + byteLength (c :: rest.take n)
    let more := scan stop (rest.drop n)
    match token with
    | some t => ⟨t, start, stop⟩ :: more
    | none => more
termination_by cs => cs.length
decreasing_by simp only [List.length_drop, List.length_cons]; omega

/-- The tokens of a script, ended by one `eof`. -/
def tokenize (script : String) : List Located :=
  scan 0 script.toList

end CrudGen.Sql.Lexer

namespace CrudGen.Sql

/-- Tokens that end a statement. -/
def Token.endsStatement (t : Token) : Bool :=
  t == .semicolon || t == .eof

/-- The runs of tokens between those that end a statement. -/
def runs : List Located → List (List Located)
  | [] => [[]]
  | t :: rest =>
    if t.token.endsStatement then [] :: runs rest
    else match runs rest with
      | [] => [[t]]
      | run :: more => (t :: run) :: more

/-- The statements of a script; empty ones are dropped. -/
def statements (tokens : List Located) : List (List Located) :=
  (runs tokens).filter fun run => !run.isEmpty

/-- The characters from a byte offset on. -/
def fromByte : Nat → List Char → List Char
  | _, [] => []
  | 0, cs => cs
  | n, c :: rest => fromByte (n - c.utf8Size) rest

/-- The characters before a byte offset. -/
def beforeByte : Nat → List Char → List Char
  | _, [] => []
  | 0, _ => []
  | n, c :: rest => c :: beforeByte (n - c.utf8Size) rest

/-- The longest excerpt that is shown whole. -/
def excerptLength : Nat := 60

/-- The source of a statement on one line, cut if it is long. -/
def excerpt (script : List Char) (statement : List Located) : String :=
  match statement, statement.getLast? with
  | first :: _, some last =>
    let source := beforeByte (last.stop - first.start) (fromByte first.start script)
    let text := [' '].intercalate (Text.wordsOf source)
    if text.length > excerptLength then String.ofList (text.take excerptLength) ++ "..."
    else String.ofList text
  | _, _ => ""

end CrudGen.Sql
