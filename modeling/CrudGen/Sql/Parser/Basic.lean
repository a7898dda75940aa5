import CrudGen.Sql.Statement

/-!
# Parsers over a statement's tokens

A `Parser` reads tokens from the front of a list and leaves the rest; past the end it sees `eof`.
`iterate` repeats a step as long as the step reads something, so every repetition ends. The tokens
of a statement hold no `eof` themselves, as `runs` cuts a script there (`ends_not_mem_of_originsOf`).
What drops tokens up to a comma or a parenthesis therefore does not look for one.
-/

namespace CrudGen.Sql

/-- A computation that reads tokens and may fail. -/
abbrev Parser := StateT (List Token) (Except SyntaxError)

namespace Parser

/-- The token `n` places ahead. -/
def peek (n : Nat) : Parser Token :=
  return (← get)[n]?.getD .eof

/-- The next token. -/
def current : Parser Token :=
  peek 0

/-- Drops the next token. -/
def advance : Parser Unit :=
  modify fun ts => ts.drop 1

/-- Fails because the next token is not `what`. -/
def refuse (what : String) : Parser α := do
  match ← current with
  | .eof => throw .endOfStatement
  | found => throw (.expected what found)

/-- Whether a token is a bare word, in any letter case, that is no keyword. -/
def isWord (word : String) : Token → Bool
  | .ident name => Text.sameName name word
  | _ => false

/-- Whether a token is one of several bare words. -/
def isOneOf (words : List String) (t : Token) : Bool :=
  words.any fun w => isWord w t

/-- Drops the next token if it is as described, and says whether it was. -/
def accept (p : Token → Bool) : Parser Bool := do
  if p (← current) then
    advance
    return true
  return false

/-- Drops the next token, which has to be `token`. -/
def expect (token : Token) (what : String) : Parser Unit := do
  if (← current) == token then advance else refuse what

/-- Drops the next token, which has to be the bare word `word`. -/
def expectWord (word : String) : Parser Unit := do
  if isWord word (← current) then advance else refuse word

/-- The next step of a repetition: go on or stop with a result. -/
def iterate (step : σ → Parser (ForInStep σ)) (s : σ) : Parser σ := fun ts =>
  match step s ts with
  | .error e => .error e
  | .ok (.done s', rest) => .ok (s', rest)
  | .ok (.yield s', rest) =>
    if rest.length < ts.length then iterate step s' rest else .ok (s', rest)
termination_by ts => ts.length

/-- The word a token can be used as a name with: an identifier as it stands, a keyword in lower
case. -/
def nameOf? : Token → Option String
  | .ident name => some name
  | .keyword k => some (Text.toLower k.text)
  | .serial name => some (Text.toLower name)
  | _ => none

/-- Reads a name. -/
def name (what : String) : Parser String := do
  match nameOf? (← current) with
  | some n =>
    advance
    return n
  | none => refuse what

/-- Reads one more name behind a dot. -/
def namePart (what : String) (parts : List String) : Parser (ForInStep (List String)) := do
  if ← accept (· == .dot) then return .yield (parts ++ [← name what])
  return .done parts

/-- Reads what follows the first part of a name with dots. -/
def moreParts (what : String) (parts : List String) : Parser (List String) :=
  iterate (namePart what) parts

/-- Reads names joined by dots. -/
def nameParts (what : String) : Parser (List String) := do
  moreParts what [← name what]

/-- Reads names joined by dots and keeps the last one. -/
def qualifiedName (what : String) : Parser String := do
  return (← nameParts what).getLast?.getD ""

/-- Reads an identifier if one comes next. -/
def identifier? : Parser (Option String) := do
  match ← current with
  | .ident n =>
    advance
    return some n
  | _ => return none

/-- The tokens after the parenthesis that closes `depth + 1` open ones. -/
def afterClosing : Nat → List Token → Option (List Token)
  | _, [] => none
  | depth, t :: rest =>
    match t, depth with
    | .lparen, _ => afterClosing (depth + 1) rest
    | .rparen, 0 => some rest
    | .rparen, d + 1 => afterClosing d rest
    | _, _ => afterClosing depth rest

/-- Drops what stands before the parenthesis that closes an open one, and the parenthesis. -/
def closing : Parser Unit := fun ts =>
  match afterClosing 0 ts with
  | some rest => .ok ((), rest)
  | none => .error .endOfStatement

/-- Drops a parenthesised group. -/
def skipParenthesized : Parser Unit := do
  expect .lparen "("
  closing

/-- The tokens from the next comma or closing parenthesis on that stands outside inner ones. -/
def fromElementEnd : Nat → List Token → List Token
  | _, [] => []
  | depth, t :: rest =>
    match t, depth with
    | .comma, 0 => t :: rest
    | .rparen, 0 => t :: rest
    | .lparen, _ => fromElementEnd (depth + 1) rest
    | .rparen, d + 1 => fromElementEnd d rest
    | _, _ => fromElementEnd depth rest

/-- Drops the rest of an element of a list. -/
def skipElement : Parser Unit :=
  modify (fromElementEnd 0)

/-- Drops `IF EXISTS` or `IF NOT EXISTS` and says whether it was there. -/
def skipIfExists : Parser Bool := do
  if ← accept (· == .keyword .ifWord) then
    discard <| accept (· == .keyword .not)
    expect (.keyword .existsWord) "EXISTS"
    return true
  return false

/-- Words after a column of an index that say how it is sorted. -/
def sortWords : List String :=
  ["ASC", "DESC", "NULLS", "FIRST", "LAST"]

/-- Drops one suffix of a column in a list. -/
def columnSuffix (_ : Unit) : Parser (ForInStep Unit) := do
  let t ← current
  if t == .lparen then
    skipParenthesized
    return .yield ()
  else if isOneOf sortWords t then
    advance
    return .yield ()
  else return .done ()

/-- Drops the length and the sort words after a column of a list. -/
def skipColumnSuffixes : Parser Unit :=
  iterate columnSuffix ()

/-- Reads one column of a list, a comma, or the parenthesis that ends the list. -/
def listColumn (columns : List String) : Parser (ForInStep (List String)) := do
  match ← current with
  | .rparen =>
    advance
    return .done columns
  | .eof => throw .endOfStatement
  | .comma =>
    advance
    return .yield columns
  | _ =>
    let column ← name "column name"
    skipColumnSuffixes
    return .yield (columns ++ [column])

/-- Reads a parenthesised list of columns, which may not be empty. -/
def columnList : Parser (List String) := do
  expect .lparen "column list"
  let columns ← iterate listColumn []
  if columns.isEmpty then throw .emptyColumnList
  return columns

end Parser

end CrudGen.Sql
