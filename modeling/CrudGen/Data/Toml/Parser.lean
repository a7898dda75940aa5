import CrudGen.Data.Toml.Basic
import CrudGen.Data.Toml.Moment
import CrudGen.Data.Toml.Quoted

/-!
# Reading TOML

`Toml.parse?` reads a document. Each reader takes the characters from its place on and gives what
it read with the characters that are left, or nothing if the text is malformed there.
-/

namespace CrudGen.Toml

/-- How many parts a key may have, and how many arrays and tables may stand inside each other. -/
def depthLimit : Nat := 79

/-- The characters after a comment, if there is one, and after the end of the line. -/
def lineEnd (cs : List Char) : Option (List Char) :=
  let rest :=
    match skipBlanks cs with
    | '#' :: more => more.dropWhile isPlain
    | other => other
  if rest.isEmpty then some [] else newline? rest

/-- Drops blanks, comments and line ends. -/
def skipLines : List Char → List Char
  | [] => []
  | '#' :: rest => skipComment rest
  | '\r' :: '\n' :: rest => skipLines rest
  | c :: rest => if c == ' ' || c == '\t' || c == '\n' then skipLines rest else c :: rest
where
  /-- Drops the rest of a comment and what follows it. -/
  skipComment : List Char → List Char
    | [] => []
    | '\n' :: rest => skipLines rest
    | '\r' :: '\n' :: rest => skipLines rest
    | c :: rest => if isPlain c then skipComment rest else c :: rest

/-- Characters of a key without quotes. -/
def isBareKeyChar (c : Char) : Bool :=
  c.isAlphanum || c == '_' || c == '-'

/-- Reads one part of a key. -/
def keyPart (cs : List Char) : Option (String × List Char) :=
  match cs with
  | '"' :: _ | '\'' :: _ => shortText cs
  | _ =>
    let word := cs.takeWhile isBareKeyChar
    if word.isEmpty then none else some (String.ofList word, cs.drop word.length)

/-- Reads at most so many parts of a key with the blanks around them. -/
def keyParts : (limit : Nat) → List Char → Option (List String × List Char)
  | 0, _ => none
  | limit + 1, cs => do
    let (part, rest) ← keyPart (skipBlanks cs)
    match skipBlanks rest with
    | '.' :: more =>
      let (parts, rest) ← keyParts limit more
      return (part :: parts, rest)
    | rest => return ([part], rest)

/-- Reads a key with the blanks around it. -/
def key (cs : List Char) : Option (List String × List Char) :=
  keyParts depthLimit cs

/-- Reads a value on its own. -/
def scalar (cs : List Char) : Option (Toml × List Char) :=
  match cs with
  | '"' :: _ | '\'' :: _ => (anyText cs).map fun (s, rest) => (.text s, rest)
  | _ =>
    match Moment.read? cs with
    | some (m, rest) => some (.moment m.text, rest)
    | none =>
      let word := cs.takeWhile fun c => c.isAlphanum || ['+', '-', '_', '.', ':'].contains c
      if isNumber word || ["true".toList, "false".toList].contains word then
        some (.atom, cs.drop word.length)
      else none

/-- Reads the rest of an array, given the reader of its elements. -/
def items (element : List Char → Option (Toml × List Char)) :
    (fuel : Nat) → List Char → Option (List Toml × List Char)
  | 0, _ => none
  | fuel + 1, cs =>
    match skipLines cs with
    | ']' :: rest => some ([], rest)
    | cs => do
      let (v, rest) ← element cs
      match skipLines rest with
      | ',' :: rest =>
        let (vs, rest) ← items element fuel rest
        return (v :: vs, rest)
      | ']' :: rest => return ([v], rest)
      | _ => none

/-- Reads the rest of a table on one line, which is not empty, given the reader of its values. -/
def pairs (element : List Char → Option (Toml × List Char)) :
    (fuel : Nat) → Members → List Char → Option (Members × List Char)
  | 0, _, _ => none
  | fuel + 1, members, cs => do
    let (path, rest) ← key cs
    let '=' :: rest := rest | none
    let (v, rest) ← element (skipBlanks rest)
    let members ← assign v true path members
    match skipBlanks rest with
    | ',' :: rest => pairs element fuel members rest
    | '\x7d' :: rest => return (members, rest)
    | _ => none

/-- Reads a value with at most so many arrays and tables inside each other. -/
def value : (depth : Nat) → List Char → Option (Toml × List Char)
  | 0, cs => scalar cs
  | depth + 1, cs =>
    match cs with
    | '[' :: rest =>
      (items (value depth) (rest.length + 1) rest).map fun (vs, rest) => (.array vs, rest)
    | '\x7b' :: rest =>
      match skipBlanks rest with
      | '\x7d' :: rest => some (.table [], rest)
      | rest =>
        (pairs (value depth) rest.length [] rest).map fun (members, rest) =>
          (.table (membersToToml members), rest)
    | _ => scalar cs

/-- Reads the lines of a document. `path` is the last header. -/
def lines (path : List String) (members : Members) : (fuel : Nat) → List Char → Option Members
  | 0, _ => none
  | fuel + 1, cs => do
    match skipLines cs with
    | [] => return members
    | '[' :: '[' :: rest =>
      let (path, rest) ← key rest
      let ']' :: ']' :: rest := rest | none
      lines path (← openElement path members) fuel (← lineEnd rest)
    | '[' :: rest =>
      let (path, rest) ← key rest
      let ']' :: rest := rest | none
      lines path (← openTable path members) fuel (← lineEnd rest)
    | cs =>
      let (name, rest) ← key cs
      let '=' :: rest := rest | none
      let (v, rest) ← value depthLimit (skipBlanks rest)
      lines path (← within (assign v true name) path members) fuel (← lineEnd rest)

/-- A document without the mark that may stand before it. -/
def dropByteOrderMark : List Char → List Char
  | '\ufeff' :: rest => rest
  | cs => cs

/-- Reads a document. -/
def parse? (document : String) : Option Toml := do
  let cs := dropByteOrderMark document.toList
  let members ← lines [] [] (cs.length + 1) cs
  return .table (membersToToml members)

end CrudGen.Toml
