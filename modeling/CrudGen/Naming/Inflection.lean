import CrudGen.Naming.Casing

/-!
# Singular and plural

English nouns are inflected by their endings, with a list of irregular ones and of ones that have
no plural of their own. Of a name in snake case only the last word is inflected, and a number after
it is not a word.
-/

namespace CrudGen.Naming

open CrudGen.Text

/-- Words whose plural is the word itself. -/
def uncountable : List String :=
  ["data", "metadata", "information", "equipment", "news", "series", "species", "status",
    "feedback", "media", "settings"]

/-- Words with a plural of their own. -/
def irregular : List (String × String) :=
  [("person", "people"), ("child", "children"), ("man", "men"), ("woman", "women"),
    ("mouse", "mice"), ("goose", "geese"), ("foot", "feet"), ("tooth", "teeth")]

/-- Whether a text ends in one of several endings. -/
def endsInOneOf (s : String) (endings : List String) : Bool :=
  endings.any fun e => e.toList.isSuffixOf s.toList

/-- Whether a character is a vowel. -/
def isVowel (c : Char) : Bool :=
  ['a', 'e', 'i', 'o', 'u'].contains c

/-- The plural of a word. -/
def pluralize (s : String) : String :=
  if s.isEmpty || uncountable.contains s then s
  else match irregular.lookup s with
    | some plural => plural
    | none =>
      if irregular.any (·.2 == s) then s
      else match s.toList.reverse with
        | 'y' :: c :: rest =>
          if isVowel c then s ++ "s"
          else String.ofList (rest.reverse ++ [c]) ++ "ies"
        | _ =>
          if endsInOneOf s ["ss", "x", "z", "sh", "ch"] then s ++ "es"
          else if endsInOneOf s ["s"] then s
          else s ++ "s"

/-- A text without its last `n` characters. -/
def dropLast (n : Nat) (s : String) : String :=
  String.ofList (s.toList.take (s.length - n))

/-- The singular of a word. -/
def singularize (s : String) : String :=
  if s.isEmpty || uncountable.contains s then s
  else match irregular.find? (·.2 == s) with
    | some (single, _) => single
    | none =>
      if endsInOneOf s ["ies"] && s != "ies" then dropLast 3 s ++ "y"
      else if endsInOneOf s ["sses", "xes", "zes", "shes", "ches"] then dropLast 2 s
      else if endsInOneOf s ["ss", "us", "is"] then s
      else if endsInOneOf s ["s"] && s != "s" then dropLast 1 s
      else s

/-- Whether a piece of a name is a number. -/
def isNumber (piece : String) : Bool :=
  !piece.isEmpty && piece.all Char.isDigit

/-- Inflects the last word among the pieces of a name, which are given in reverse. -/
def inflectLast (f : String → String) : List String → List String
  | [] => []
  | [single] => [f single]
  | last :: before => if isNumber last then last :: inflectLast f before else f last :: before

/-- Inflects the last word of a name in snake case. -/
def onLastWord (f : String → String) (snake : String) : String :=
  let pieces := (splitAll (· == '_') snake.toList).map String.ofList
  "_".intercalate (inflectLast f pieces.reverse).reverse

/-- A name in snake case with its last word in the singular. -/
def singularSnake (name : String) : String :=
  onLastWord singularize (Casing.toSnake name)

/-- A name in snake case with its last word in the plural. -/
def pluralSnake (name : String) : String :=
  onLastWord pluralize (singularSnake name)

end CrudGen.Naming
