import CrudGen.Sql.Parser.Basic
import CrudGen.Text.Basic

/-!
# Default expressions

A default is any run of tokens up to the next clause of its column. It is kept as text that
`render` makes from the tokens.
-/

namespace CrudGen.Sql.Parser

/-- Tokens that begin the clause after a default. -/
def endsDefault (t : Token) : Bool :=
  match t with
  | .keyword k =>
    [Keyword.not, .null, .primary, .unique, .references, .check, .constraint, .collate, .comment,
      .increment, .on].contains k
  | _ => isWord "GENERATED" t

/-- The tokens of a default and those after it. It ends outside parentheses at a comma, at a
closing parenthesis, or before a clause; its first token begins no clause. -/
def spanDefault : (depth : Nat) → (first : Bool) → List Token → List Token × List Token
  | _, _, [] => ([], [])
  | 0, first, t :: rest =>
    if t == .comma || t == .rparen then ([], t :: rest)
    else if t == .lparen then
      let (taken, left) := spanDefault 1 false rest
      (t :: taken, left)
    else if !first && endsDefault t then ([], t :: rest)
    else
      let (taken, left) := spanDefault 0 false rest
      (t :: taken, left)
  | depth + 1, _, t :: rest =>
    let inner :=
      if t == .lparen then depth + 2 else if t == .rparen then depth else depth + 1
    let (taken, left) := spanDefault inner false rest
    (t :: taken, left)

/-- Whether a blank stands between two neighbouring tokens of rendered text. -/
def spaced (before after : Token) : Bool :=
  match before, after with
  | _, .rparen | _, .comma | _, .doubleColon | _, .brackets | _, .dot => false
  | .lparen, _ | .doubleColon, _ | .dot, _ => false
  | .ident _, .lparen => false
  | _, _ => true

/-- The text of tokens that follow `before`. -/
def renderAfter (before : Token) : List Token → String
  | [] => ""
  | t :: rest => (if spaced before t then " " else "") ++ t.text ++ renderAfter t rest

/-- The compact text of a run of tokens. -/
def render : List Token → String
  | [] => ""
  | t :: rest => t.text ++ renderAfter t rest

/-- Drops the tokens of a default and gives them. -/
def defaultTokens : Parser (List Token) := fun ts =>
  .ok (spanDefault 0 true ts)

/-- Reads a default expression. -/
def defaultExpression : Parser String := do
  let taken ← defaultTokens
  if taken.isEmpty then refuse "default value"
  return render taken

/-- Whether a default takes its value from a number generator. -/
def drawsFromSequence (expression : String) : Bool :=
  Text.occursIn "nextval(".toList (Text.toLower expression).toList

end CrudGen.Sql.Parser
