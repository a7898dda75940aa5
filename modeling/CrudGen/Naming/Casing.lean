import CrudGen.Text.Basic
import CrudGen.Text.Case
import CrudGen.Text.Letter

/-!
# Words and casings

A name is cut at everything that is no letter or numeral. Inside a piece a word ends where a small
letter is followed by a capital, and before the last of several capitals that a small letter
follows. Numerals and letters without case go with what precedes them. A casing is a way in which
the words are put together again.
-/

namespace CrudGen.Naming

open CrudGen.Text

/-- The case of the last letter of a word that has one. -/
inductive Mode where
  | boundary | lower | upper
  deriving DecidableEq, Repr, Inhabited

/-- The mode after one more character. -/
def Mode.after (mode : Mode) (c : Char) : Mode :=
  if isLower c then .lower else if isUpper c then .upper else mode

/-- The words of a piece without separators. `word` is the current word in reverse. -/
def wordsFrom (mode : Mode) (word : List Char) : List Char → List (List Char)
  | [] => []
  | [c] => [(c :: word).reverse]
  | c :: next :: rest =>
    if mode.after c = .lower ∧ isUpper next then
      (c :: word).reverse :: wordsFrom .boundary [] (next :: rest)
    else if mode = .upper ∧ isUpper c ∧ isLower next then
      word.reverse :: wordsFrom .boundary [c] (next :: rest)
    else wordsFrom (mode.after c) (c :: word) (next :: rest)

/-- The words of a name. -/
def words (name : String) : List (List Char) :=
  (splitAll (fun c => !isAlphanumeric c) name.toList).flatMap (wordsFrom .boundary [])

/-- A word in lower case; a sigma at its end takes its final form. -/
def lowerWord : List Char → List Char
  | [] => []
  | ['Σ'] => ['ς']
  | c :: rest => lowerOf c ++ lowerWord rest

/-- A word in upper case. -/
def upperWord (word : List Char) : List Char :=
  word.flatMap upperOf

/-- A word with its first letter in upper case and the others in lower case. -/
def capitalWord : List Char → List Char
  | [] => []
  | c :: rest => upperOf c ++ lowerWord rest

end CrudGen.Naming

namespace CrudGen

open Naming

/-- A way to spell a name of several words. -/
inductive Casing where
  | snake | camel | pascal | kebab | screamingSnake
  /-- The name as it is. -/
  | preserve
  deriving DecidableEq, Repr, Inhabited

namespace Casing

/-- The words of a name in lower case with a separator between them. -/
def separated (separator : Char) (name : String) : String :=
  String.ofList ([separator].intercalate ((words name).map lowerWord))

/-- `order_item`. -/
def toSnake (name : String) : String :=
  separated '_' name

/-- `order-item`. -/
def toKebab (name : String) : String :=
  separated '-' name

/-- `ORDER_ITEM`. -/
def toScreamingSnake (name : String) : String :=
  String.ofList (['_'].intercalate ((words name).map upperWord))

/-- `OrderItem`. -/
def toPascal (name : String) : String :=
  String.ofList ((words name).flatMap capitalWord)

/-- `orderItem`. -/
def toCamel (name : String) : String :=
  match words name with
  | [] => ""
  | first :: rest => String.ofList (lowerWord first ++ rest.flatMap capitalWord)

/-- A name in a casing. -/
def apply (casing : Casing) (name : String) : String :=
  match casing with
  | .snake => toSnake name
  | .camel => toCamel name
  | .pascal => toPascal name
  | .kebab => toKebab name
  | .screamingSnake => toScreamingSnake name
  | .preserve => name

/-- Every casing. -/
def all : List Casing :=
  [.snake, .camel, .pascal, .kebab, .screamingSnake, .preserve]

end Casing

end CrudGen
