/-!
# Characters and texts

Character classes are tables of ranges; a text is searched, cut at separators and blanks, read as a
whole number, and put between delimiters.
-/

namespace CrudGen.Text

/-! ### Sets of code points

Character classes are tables of closed ranges, and tables of runs where every second code point
belongs to the class. `inRanges` and `inRuns` are membership.
-/

/-- Whether a number lies in one of the closed ranges. -/
def inRanges (ranges : List (Nat × Nat)) (n : Nat) : Bool :=
  ranges.any fun (first, last) => first ≤ n && n ≤ last

/-- Whether a number is reached by stepping through one of the runs `(first, last, step)`. -/
def inRuns (runs : List (Nat × Nat × Nat)) (n : Nat) : Bool :=
  runs.any fun (first, last, step) => first ≤ n && n ≤ last && (n - first) % step == 0

/-! ### Blanks

`isBlank` is the Unicode property White_Space. `words` cuts a text at runs of blanks, and `trim`
drops the blanks at both ends.
-/

/-- Code points with the property White_Space, as closed ranges. -/
def blankRanges : List (Nat × Nat) := [
  (0x0009, 0x000D), (0x0020, 0x0020), (0x0085, 0x0085), (0x00A0, 0x00A0), (0x1680, 0x1680),
  (0x2000, 0x200A), (0x2028, 0x2029), (0x202F, 0x202F), (0x205F, 0x205F), (0x3000, 0x3000)]

/-- A space, a line end or another blank. -/
def isBlank (c : Char) : Bool :=
  inRanges blankRanges c.toNat

/-- The runs of non-blank characters of a text, in order. -/
def wordsOf : List Char → List (List Char)
  | [] => []
  | c :: rest =>
    if isBlank c then wordsOf rest
    else match rest with
      | [] => [[c]]
      | d :: _ =>
        if isBlank d then [c] :: wordsOf rest
        else match wordsOf rest with
          | [] => [[c]]
          | word :: more => (c :: word) :: more

/-- The words of a text, cut at runs of blanks. -/
def words (s : String) : List String :=
  (wordsOf s.toList).map String.ofList

/-- A text without the blanks at its ends. -/
def trim (s : String) : String :=
  String.ofList (((s.toList.dropWhile isBlank).reverse.dropWhile isBlank).reverse)

/-! ### Parts of a text

Finding one text in another and cutting a text at its first separator.
-/

/-- Whether `part` stands somewhere in the characters. -/
def occursIn (part : List Char) : List Char → Bool
  | [] => part.isEmpty
  | c :: rest => part.isPrefixOf (c :: rest) || occursIn part rest

/-- Whether a text has `part` in it. -/
def has (s part : String) : Bool :=
  occursIn part.toList s.toList

/-- The texts before and after the first character that `isSeparator` accepts. -/
def splitOnce (isSeparator : Char → Bool) (s : String) : Option (String × String) :=
  let before := s.toList.takeWhile fun c => !isSeparator c
  match s.toList.drop before.length with
  | [] => none
  | _ :: after => some (String.ofList before, String.ofList after)

/-- The pieces of a text between the characters that `isSeparator` accepts; one more piece than
there are separators. -/
def splitAll (isSeparator : Char → Bool) : List Char → List (List Char)
  | [] => [[]]
  | c :: rest =>
    if isSeparator c then [] :: splitAll isSeparator rest
    else match splitAll isSeparator rest with
      | [] => [[c]]
      | piece :: more => (c :: piece) :: more

/-- The text after a leading `start`, if it stands there. -/
def dropStart? (s start : String) : Option String :=
  if start.toList.isPrefixOf s.toList then some (String.ofList (s.toList.drop start.length))
  else none

/-- The text before a trailing `tail`, if it stands there. -/
def dropTail? (s tail : String) : Option String :=
  if tail.toList.isSuffixOf s.toList then
    some (String.ofList (s.toList.take (s.length - tail.length)))
  else none

/-- Texts joined by a separator. -/
def joined (separator : String) (parts : List String) : String :=
  separator.intercalate parts

/-! ### Whole numbers

Reading decimal digits with an optional sign, within the bounds that the reader of a field sets.
-/

/-- The value of a non-empty run of ASCII digits. -/
def digits? (cs : List Char) : Option Nat :=
  if cs.isEmpty || !cs.all Char.isDigit then none
  else some (cs.foldl (fun n c => 10 * n + (c.toNat - '0'.toNat)) 0)

/-- The numbers of 32 bits are those below this one. -/
def sizeLimit : Nat := 0x100000000

/-- The signed numbers of 64 bits are those from its negation up to below this one. -/
def integerLimit : Int := 0x8000000000000000

/-- A number below `sizeLimit`; a plus sign may stand in front. -/
def size? (s : String) : Option Nat :=
  let value :=
    match s.toList with
    | '+' :: rest => digits? rest
    | cs => digits? cs
  value.filter (· < sizeLimit)

/-- A number from `-integerLimit` to below `integerLimit` with an optional sign. -/
def integer? (s : String) : Option Int :=
  let value : Option Int :=
    match s.toList with
    | '+' :: rest => (digits? rest).map Int.ofNat
    | '-' :: rest => (digits? rest).map fun n => -Int.ofNat n
    | cs => (digits? cs).map Int.ofNat
  value.filter fun n => decide (-integerLimit ≤ n ∧ n < integerLimit)

/-! ### Quoted text

Two ways to put text between delimiters: doubling every delimiter inside, and escaping with a
backslash. Both are one pass over the characters, so that each character's image can be read off
its own.
-/

/-- The characters of a text with every `mark` written twice. -/
def doubled (mark : Char) : List Char → List Char
  | [] => []
  | c :: rest => if c = mark then c :: c :: doubled mark rest else c :: doubled mark rest

/-- A text between two marks, with every mark inside written twice. -/
def enclosed (mark : Char) (s : String) : String :=
  String.ofList (mark :: doubled mark s.toList ++ [mark])

/-- The characters of a text with a backslash before every character that `special` names. -/
def escaped (special : List Char) : List Char → List Char
  | [] => []
  | c :: rest =>
    if special.contains c then '\\' :: c :: escaped special rest else c :: escaped special rest

/-- A text between two marks, with a backslash before every mark and backslash inside. -/
def backslashed (mark : Char) (s : String) : String :=
  String.ofList (mark :: escaped ['\\', mark] s.toList ++ [mark])

/-- A text between double quotes, with a backslash before quotes and backslashes. -/
def quote (s : String) : String :=
  backslashed '"' s

/-- A text between curly brackets. -/
def braced (s : String) : String :=
  "\x7b" ++ s ++ "\x7d"

end CrudGen.Text
