import CrudGen.Text.Basic

/-!
# Tokens of a DDL script

A `Token` is a word, a literal or a symbol. Words that the grammar names are `Keyword`s; `text` is
how a token is shown in messages and in rendered expressions. A `Located` token also carries the
byte range it was read from.
-/

namespace CrudGen.Sql

/-- The words that statements and clauses are recognised by. -/
inductive Keyword where
  | create | alter | add | table | only | primary | key | foreign | references | not | null
  | unique | default | on | delete | update | cascade | restrict | constraint | index | sequence
  | ifWord | existsWord | increment | check | collate | comment
  deriving DecidableEq, Repr, Inhabited

/-- The one spelling a keyword is shown in. -/
def Keyword.text : Keyword → String
  | .create => "CREATE"
  | .alter => "ALTER"
  | .add => "ADD"
  | .table => "TABLE"
  | .only => "ONLY"
  | .primary => "PRIMARY"
  | .key => "KEY"
  | .foreign => "FOREIGN"
  | .references => "REFERENCES"
  | .not => "NOT"
  | .null => "NULL"
  | .unique => "UNIQUE"
  | .default => "DEFAULT"
  | .on => "ON"
  | .delete => "DELETE"
  | .update => "UPDATE"
  | .cascade => "CASCADE"
  | .restrict => "RESTRICT"
  | .constraint => "CONSTRAINT"
  | .index => "INDEX"
  | .sequence => "SEQUENCE"
  | .ifWord => "IF"
  | .existsWord => "EXISTS"
  | .increment => "INCREMENT"
  | .check => "CHECK"
  | .collate => "COLLATE"
  | .comment => "COMMENT"

/-- Every keyword. -/
def Keyword.all : List Keyword :=
  [.create, .alter, .add, .table, .only, .primary, .key, .foreign, .references, .not, .null,
    .unique, .default, .on, .delete, .update, .cascade, .restrict, .constraint, .index, .sequence,
    .ifWord, .existsWord, .increment, .check, .collate, .comment]

/-- The keyword that an upper-cased word is. The counter clause has two more spellings. -/
def Keyword.ofUpper? (word : String) : Option Keyword :=
  if word == "AUTO_INCREMENT" || word == "AUTOINCREMENT" then some .increment
  else Keyword.all.find? fun k => k.text == word

/-- What a script is made of. -/
inductive Token where
  | keyword (k : Keyword)
  /-- One of the self-numbering integer types, in upper case. -/
  | serial (name : String)
  | ident (name : String)
  | str (value : String)
  | num (digits : String)
  | lparen
  | rparen
  | comma
  | semicolon
  | dot
  | doubleColon
  /-- The array suffix `[]`. -/
  | brackets
  | op (symbol : Char)
  | eof
  deriving DecidableEq, Repr, Inhabited

namespace Token

/-- The names of the self-numbering integer types. -/
def serialNames : List String :=
  ["SERIAL", "BIGSERIAL", "SMALLSERIAL"]

/-- How a token is shown. A quote inside a string literal is shown doubled. -/
def text : Token → String
  | .keyword k => k.text
  | .serial name => name
  | .ident name => name
  | .str value => Text.enclosed '\'' value
  | .num digits => digits
  | .lparen => "("
  | .rparen => ")"
  | .comma => ","
  | .semicolon => ";"
  | .dot => "."
  | .doubleColon => "::"
  | .brackets => "[]"
  | .op symbol => symbol.toString
  | .eof => "end of input"

end Token

/-- A token with the byte range it was read from. -/
structure Located where
  token : Token
  start : Nat
  stop : Nat
  deriving DecidableEq, Repr, Inhabited

end CrudGen.Sql
