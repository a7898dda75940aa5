import CrudGen.Text.Width.Table

/-!
# Display width

The number of terminal columns a text takes: two for wide and fullwidth characters, none for marks
that combine with the character before them, one for everything else. Emoji sequences, flags and
the ligatures of some scripts take the columns of what is shown for them; they are found by
measuring a text from its end.
-/

namespace CrudGen.Text.Width

/-! ### What follows a character

The columns of a character depend on what stands behind it: an emoji swallows the emoji joined to
it, letters of some scripts fuse, flags are pairs of regional indicators. A text is therefore
measured from its end, and a `Follower` says what the part already measured begins with.
`Follower.fuse?` is the rule for a character that combines with its follower.
-/

/-- What the text behind a character begins with, as far as it matters to the character. A letter
of a ligature may be `joined`: a zero-width joiner stands before it. -/
inductive Follower where
  /-- Nothing that combines. -/
  | plain
  | lineFeed
  /-- Arabic alef, which fuses with a lam. -/
  | alef
  /-- Hebrew lamed, which fuses with an alef. -/
  | lamed (joined : Bool)
  /-- A Khmer letter that may stand below another one. -/
  | subscript
  /-- Buginese ya, which fuses with the vowel signs i and a. -/
  | ya (joined : Bool)
  /-- Buginese ya with the vowel sign i. -/
  | yaWithI
  /-- A Tifinagh consonant, which fuses with another one. -/
  | consonant (joined : Bool)
  /-- A Tifinagh consonant with the joiner of its script. -/
  | joinedConsonant
  /-- Lisu tone letters that combine with another one. -/
  | tone
  /-- Old Turkic orkhon i, which fuses with an orkhon ec. -/
  | orkhonI (joined : Bool)
  /-- Kirat Rai vowel signs e and ai. -/
  | vowelE
  | vowelAi
  /-- An emoji. -/
  | emoji
  /-- A skin tone. -/
  | skinTone
  /-- One regional indicator, and more of them. -/
  | region
  | regions
  /-- A zero-width joiner and an emoji behind it. -/
  | joinedEmoji
  /-- The mark of a keycap joined to an emoji. -/
  | joinedKeycap
  /-- One regional indicator, an even and an odd number of them, joined to an emoji. -/
  | joinedRegion
  | evenRegions
  | oddRegions
  /-- The end of a flag's tags, with so many letters before it. -/
  | tagLetters (count : Nat)
  /-- The end of a flag's tags, with letters and so many digits before it. -/
  | tagDigits (count : Nat)
  deriving DecidableEq, Repr, Inhabited

namespace Follower

/-- A letter of a ligature that characters without a column do not part from its partner. -/
def isLigature : Follower → Bool
  | .lamed _ | .subscript | .ya _ | .yaWithI | .consonant _ | .joinedConsonant | .tone
  | .orkhonI _ | .vowelE | .vowelAi => true
  | _ => false

/-- The follower with a zero-width joiner before it. -/
def join : Follower → Follower
  | .lamed _ => .lamed true
  | .ya _ => .ya true
  | .consonant _ => .consonant true
  | .orkhonI _ => .orkhonI true
  | f => f

/-- What remains of a follower when a variation selector stands before it. -/
def keepSelected (emoji : Bool) : Follower → Follower
  | .joinedEmoji => if emoji then .joinedEmoji else .plain
  | .joinedKeycap => if emoji then .joinedKeycap else .plain
  | f => if f.isLigature || f = .alef then f else .plain

end Follower

/-- Arabic letters of the joining group of lam. -/
def isLam (n : Nat) : Bool :=
  inRanges [(0x0644, 0x0644), (0x06B5, 0x06B8), (0x076A, 0x076A), (0x08A6, 0x08A6),
    (0x08C7, 0x08C7)] n

/-- Arabic letters of the joining group of alef. -/
def isAlef (n : Nat) : Bool :=
  inRanges [(0x0622, 0x0623), (0x0625, 0x0625), (0x0627, 0x0627), (0x0671, 0x0673),
    (0x0675, 0x0675), (0x0773, 0x0774), (0x0870, 0x0882)] n

/-- Khmer letters that may stand below another one. -/
def isSubscript (n : Nat) : Bool :=
  inRanges [(0x1780, 0x1782), (0x1784, 0x1787), (0x1789, 0x178C), (0x178E, 0x1793),
    (0x1795, 0x1798), (0x179B, 0x179D), (0x17A0, 0x17A0), (0x17A2, 0x17A2), (0x17A7, 0x17A7),
    (0x17AB, 0x17AC), (0x17AF, 0x17AF)] n

/-- Tifinagh consonants. -/
def isConsonant (n : Nat) : Bool :=
  inRanges [(0x2D31, 0x2D65), (0x2D6F, 0x2D6F)] n

/-- Regional indicators. -/
def isRegion (n : Nat) : Bool :=
  0x1F1E6 ≤ n && n ≤ 0x1F1FF

/-- Skin tones. -/
def isSkinTone (n : Nat) : Bool :=
  0x1F3FB ≤ n && n ≤ 0x1F3FF

/-- Letters of a flag's tags. -/
def isTagLetter (n : Nat) : Bool :=
  0xE0061 ≤ n && n ≤ 0xE007A

/-- Digits of a flag's tags. -/
def isTagDigit (n : Nat) : Bool :=
  0xE0030 ≤ n && n ≤ 0xE0039

/-- Marks across which an Arabic lam and alef fuse. -/
def isTransparent (n : Nat) : Bool :=
  inRanges zeroRanges n && !inRanges nonTransparentRanges n

/-- The columns that a character adds before a follower it combines with, and what it is to the
character before it. A character that does not combine gives nothing. -/
def Follower.fuse? (n : Nat) : Follower → Option (Int × Follower)
  | .alef =>
    if isLam n then some (0, .plain) else if isTransparent n then some (0, .alef) else none
  | .lamed true => if n = 0x05D0 then some (0, .plain) else none
  | .subscript => if n = 0x17D2 then some (-1, .plain) else none
  | .ya true => if n = 0x1A17 then some (0, .yaWithI) else none
  | .yaWithI => if n = 0x1A15 then some (0, .plain) else none
  | .consonant joined =>
    if n = 0x2D7F then some (1, .joinedConsonant)
    else if joined && isConsonant n then some (0, .plain) else none
  | .joinedConsonant => if isConsonant n then some (-1, .plain) else none
  | .tone => if 0xA4F8 ≤ n && n ≤ 0xA4FB then some (0, .plain) else none
  | .orkhonI true => if n = 0x10C32 then some (0, .plain) else none
  | .vowelE =>
    if n = 0x16D63 || n = 0x16D69 then some (0, .plain)
    else if n = 0x16D67 then some (0, .vowelAi)
    else if n = 0x16D68 then some (1, .vowelE) else none
  | .vowelAi => if n = 0x16D63 then some (0, .plain) else none
  | .emoji | .evenRegions => joiner
  | .oddRegions => if isRegion n then some (-1, .evenRegions) else joiner
  | .skinTone => if inRanges toneBaseRanges n then some (0, .emoji) else joiner
  | .region => if isRegion n then some (1, .regions) else none
  | .regions => if isRegion n then some (1, .regions) else joiner
  | .joinedEmoji =>
    if n = 0x20E3 then some (0, .joinedKeycap)
    else if isRegion n then some (1, .joinedRegion)
    else if isSkinTone n then some (0, .skinTone)
    else if n = 0xE007F then some (0, .tagLetters 0)
    else if inRanges emojiRanges n then some (0, .emoji) else none
  | .joinedRegion => if isRegion n then some (-1, .evenRegions) else none
  | .tagLetters count =>
    if isTagLetter n && count < 6 then some (0, .tagLetters (count + 1))
    else if isTagDigit n && count < 5 then some (0, .tagDigits 1)
    else if n = 0x1F3F4 && 3 ≤ count then some (0, .emoji) else none
  | .tagDigits count =>
    if isTagDigit n && count < 3 then some (0, .tagDigits (count + 1))
    else if n = 0x1F3F4 && count = 3 then some (0, .emoji) else none
  | _ => none
where
  /-- A zero-width joiner. -/
  joiner : Option (Int × Follower) :=
    if n = 0x200D then some (0, .joinedEmoji) else none

end CrudGen.Text.Width

namespace CrudGen.Text

/-! ### The width of a text -/

namespace Width

/-- What a variation selector asks of the character before it. -/
inductive Presentation where
  | emoji
  | text
  /-- Fullwidth quotation marks. -/
  | fullwidth
  deriving DecidableEq, Repr, Inhabited

/-- The part of a text that is already measured. -/
structure Measured where
  columns : Int := 0
  begins : Follower := .plain
  /-- The variation selector that it begins with. -/
  selector : Option Presentation := none
  deriving Repr, Inhabited

/-- The presentation that a variation selector asks for. -/
def presentation? (n : Nat) : Option Presentation :=
  if n = 0xFE0F then some .emoji
  else if n = 0xFE0E then some .text
  else if n = 0xFE01 then some .fullwidth
  else none

/-- The columns a character takes on its own, and what it is to the character before it. -/
def single (n : Nat) : Int × Follower :=
  if inRanges zeroRanges n then (0, .plain)
  else if n = 0x17D8 then (3, .plain)
  else if isRegion n then (1, .region)
  else if isSkinTone n then (2, .skinTone)
  else if inRanges emojiRanges n then (2, .emoji)
  else if inRanges wideRanges n then (2, .plain)
  else (1, letter)
where
  /-- What a letter is to the letter before it. -/
  letter : Follower :=
    if isAlef n then .alef
    else if isSubscript n then .subscript
    else if isConsonant n then .consonant false
    else if n = 0x05DC then .lamed false
    else if n = 0x1A10 then .ya false
    else if n = 0xA4FC || n = 0xA4FD then .tone
    else if n = 0x10C03 then .orkhonI false
    else if n = 0x16D67 then .vowelE
    else if n = 0x16D68 then .vowelAi
    else .plain

/-- The columns that a character behind which no variation selector stands adds before a follower,
and what it is to the character before it. -/
def beforeFollower (n : Nat) (f : Follower) : Int × Follower :=
  if f.isLigature && n = 0x200D then (0, f.join)
  else if f.isLigature && inRanges ignorableMarkRanges n then (0, f)
  else (f.fuse? n).getD (single n)

/-- The columns that a variation selector gives to the character before it, and what the character
is to the one before it. A selector says nothing to a character that does not have that form. -/
def selected? (n : Nat) (f : Follower) : Presentation → Option (Int × Follower)
  | .emoji =>
    if inRanges twoFormRanges n then
      some (if f = .joinedEmoji || f = .joinedKeycap then 0 else 2, .emoji)
    else none
  | .text =>
    if inRanges twoFormRanges n && inRanges emojiRanges n && !(0x1F200 ≤ n && n ≤ 0x1F2FF) then
      some (1, .plain)
    else none
  | .fullwidth =>
    if [0x2018, 0x2019, 0x201C, 0x201D].contains n then some (2, .plain) else none

/-- Measures one more character before the part that is already measured. -/
def Measured.add (c : Char) (m : Measured) : Measured :=
  let n := c.toNat
  let f := if m.selector.isSome then m.begins.keepSelected false else m.begins
  match presentation? n with
  | some p =>
    { m with begins := f.keepSelected (p = .emoji), selector := some p }
  | none =>
    let (columns, begins) :=
      match m.selector.bind (selected? n m.begins) with
      | some shown => shown
      | none => next n f
    { columns := m.columns + columns, begins }
where
  /-- One more character without a variation selector of its own. -/
  next (n : Nat) (f : Follower) : Int × Follower :=
    if 0xA0 < n then beforeFollower n f
    else if n = 0x0A then (1, .lineFeed)
    else if n = 0x0D && f = .lineFeed then (0, .plain)
    else (1, .plain)

/-- A whole text as a part that is measured. -/
def measure (cs : List Char) : Measured :=
  cs.foldr Measured.add {}

end Width

/-- The columns a text takes. -/
def width (s : String) : Nat :=
  (Width.measure s.toList).columns.toNat

end CrudGen.Text
