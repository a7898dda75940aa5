import CrudGen.Text.CaseTable
import CrudGen.Text.Basic

/-!
# Upper and lower case

Case mappings of whole texts follow the full Unicode mappings: one character may become several,
and a sigma that ends a word is lowered to its final form. `foldAscii` is the comparison key of
names, which are equal when they differ in the case of ASCII letters only.
-/

namespace CrudGen.Text

/-- A lower-case character. -/
def isLower (c : Char) : Bool :=
  if c.val < 0x80 then c.isLower else inRuns lowercaseRuns c.toNat

/-- An upper-case character. -/
def isUpper (c : Char) : Bool :=
  if c.val < 0x80 then c.isUpper else inRuns uppercaseRuns c.toNat

/-- Title-case letters, which are neither upper nor lower case. -/
def titleRanges : List (Nat × Nat) := [
  (0x01C5, 0x01C5), (0x01C8, 0x01C8), (0x01CB, 0x01CB), (0x01F2, 0x01F2), (0x1F88, 0x1F8F),
  (0x1F98, 0x1F9F), (0x1FA8, 0x1FAF), (0x1FBC, 0x1FBC), (0x1FCC, 0x1FCC), (0x1FFC, 0x1FFC)]

/-- A character that has a case. -/
def isCased (c : Char) : Bool :=
  isLower c || isUpper c || inRanges titleRanges c.toNat

/-- A character that the rule for a final sigma looks through. -/
def isCaseIgnorable (c : Char) : Bool :=
  inRanges caseIgnorableRanges c.toNat

/-- The image of a character under a table of runs `(first, last, step, image of the first)`. -/
def shifted (runs : List (Nat × Nat × Nat × Nat)) (c : Char) : Char :=
  match runs.find? fun (first, last, step, _) =>
      first ≤ c.toNat && c.toNat ≤ last && (c.toNat - first) % step == 0 with
  | some (first, _, _, image) => Char.ofNat (image + (c.toNat - first))
  | none => c

/-- The upper-case form of one character. -/
def upperOf (c : Char) : List Char :=
  if c.val < 0x80 then [c.toUpper]
  else match toUpperSeveral.lookup c.toNat with
    | some image => image.map Char.ofNat
    | none => [shifted toUpperRuns c]

/-- The lower-case form of one character on its own. -/
def lowerOf (c : Char) : List Char :=
  if c.val < 0x80 then [c.toLower]
  else if c == '\u0130' then ['i', '\u0307']
  else [shifted toLowerRuns c]

/-- A text in upper case. -/
def toUpper (s : String) : String :=
  String.ofList (s.toList.flatMap upperOf)

/-- Whether the nearest character that is not case-ignorable has a case. -/
def meetsCased (cs : List Char) : Bool :=
  match cs.dropWhile isCaseIgnorable with
  | [] => false
  | c :: _ => isCased c

/-- Lower-cases the characters of a text, given those before them in reverse. -/
def lowerAfter (before : List Char) : List Char → List Char
  | [] => []
  | c :: rest =>
    (if c == 'Σ' then
      if meetsCased before && !meetsCased rest then ['ς'] else ['σ']
    else lowerOf c) ++ lowerAfter (c :: before) rest

/-- A text in lower case; a sigma at the end of a word takes its final form. -/
def toLower (s : String) : String :=
  String.ofList (lowerAfter [] s.toList)

/-- The key under which two spellings of a name are the same name: ASCII letters in lower case. -/
def foldAscii (s : String) : String :=
  s.map Char.toLower

/-- Equality of names: the case of ASCII letters does not count. -/
def sameName (a b : String) : Bool :=
  foldAscii a == foldAscii b

end CrudGen.Text
