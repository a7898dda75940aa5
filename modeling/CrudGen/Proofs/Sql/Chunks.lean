import CrudGen.Proofs.Sql.Joined
import CrudGen.Proofs.Text.Lower

/-!
# Tokens — chunks of a text

A blank, a symbol, a quoted name and a word are read in the same way whatever stands behind them, as
long as that does not go on with them. The tokens of a text are then those of its chunks.

Main results:

* `tokensOf_enclosed`, `tokensOf_word` — the token of a quoted name and of a word.
* `statementsOf_single` — a text with no semicolon is one statement.
-/

namespace CrudGen.Sql

open Lexer Text

-- ---------------------------------------------------------------------------
-- Chunks
-- ---------------------------------------------------------------------------

/-- The tokens of a text, ended by one `eof`. -/
def tokensOf (cs : List Char) : List Token :=
  (scan 0 cs).map (·.token)

/-- No characters give the end only. -/
theorem tokensOf_nil : tokensOf [] = [.eof] := by
  rw [tokensOf, scan]
  rfl

/-- The first token, and then the rest. -/
theorem tokensOf_cons (c : Char) (rest : List Char) :
    tokensOf (c :: rest) = (next c rest).1.toList ++ tokensOf (rest.drop (next c rest).2) := by
  have hlater (n : Nat) (cs : List Char) : (scan n cs).map (·.token) = tokensOf cs := by
    have hscan := scan_later n 0 cs
    rw [Nat.add_zero] at hscan
    rw [hscan, List.map_map]
    rfl
  rw [tokensOf, scan_cons, List.map_append, List.map_map, hlater]
  cases (next c rest).1 <;> rfl

/-- A token that is known to be next. -/
theorem tokensOf_of_next {c : Char} {rest left : List Char} {t? : Option Token} {n : Nat}
    (h : next c rest = (t?, n)) (hleft : rest.drop n = left) :
    tokensOf (c :: rest) = t?.toList ++ tokensOf left := by
  rw [tokensOf_cons, h, hleft]

/-- A blank is passed over. -/
theorem tokensOf_blank (rest : List Char) : tokensOf (' ' :: rest) = tokensOf rest := by
  have hnext : next ' ' rest = (none, 0) := rfl
  exact tokensOf_of_next hnext rfl

theorem tokensOf_lparen (rest : List Char) : tokensOf ('(' :: rest) = .lparen :: tokensOf rest := by
  have hnext : next '(' rest = (some .lparen, 0) := rfl
  exact tokensOf_of_next hnext rfl

theorem tokensOf_rparen (rest : List Char) : tokensOf (')' :: rest) = .rparen :: tokensOf rest := by
  have hnext : next ')' rest = (some .rparen, 0) := rfl
  exact tokensOf_of_next hnext rfl

theorem tokensOf_comma (rest : List Char) : tokensOf (',' :: rest) = .comma :: tokensOf rest := by
  have hnext : next ',' rest = (some .comma, 0) := rfl
  exact tokensOf_of_next hnext rfl

-- ---------------------------------------------------------------------------
-- Quoted names
-- ---------------------------------------------------------------------------

/-- A quoted name is read back from its doubled marks. -/
theorem quoted_doubled (mark : Char) (cs : List Char) {rest : List Char}
    (hrest : rest.head? ≠ some mark) :
    quoted mark (doubled mark cs ++ mark :: rest) = (cs, (doubled mark cs).length + 1) := by
  induction cs with
  -- the mark that closes is not followed by another
  | nil =>
    rw [doubled, List.nil_append, quoted.eq_def]
    cases rest with
    | nil => simp
    | cons d more =>
      have hd : d ≠ mark := by simpa using hrest
      simp [hd]
  | cons c cs ih =>
    rw [doubled]
    -- a mark within the name is written twice
    split
    · rename_i hc
      subst hc
      rw [List.cons_append, List.cons_append, quoted.eq_def]
      simp [ih]
    · rename_i hc
      rw [List.cons_append, quoted_cons hc, ih]
      rfl

/-- The reader of a quoted name takes it to its last mark, unless one more mark follows. -/
theorem next_enclosed {mark : Char} (hmark : mark = '"' ∨ mark = '`') (name : String)
    {rest : List Char} (hrest : rest.head? ≠ some mark) :
    (enclosed mark name).toList ++ rest = mark :: (doubled mark name.toList ++ mark :: rest) ∧
      next mark (doubled mark name.toList ++ mark :: rest) =
        (some (.ident name), (doubled mark name.toList).length + 1) := by
  have hnext (cs : List Char) : next mark cs =
      (some (.ident (String.ofList (quoted mark cs).1)), (quoted mark cs).2) := by
    obtain rfl | rfl := hmark <;> rfl
  refine ⟨by simp [enclosed], ?_⟩
  rw [hnext, quoted_doubled mark name.toList hrest, String.ofList_toList]

/-- A quoted name is read as it is, unless one more mark follows. -/
theorem tokensOf_enclosed {mark : Char} (hmark : mark = '"' ∨ mark = '`') (name : String)
    {rest : List Char} (hrest : rest.head? ≠ some mark) :
    tokensOf ((enclosed mark name).toList ++ rest) = .ident name :: tokensOf rest := by
  obtain ⟨htext, hread⟩ := next_enclosed hmark name hrest
  have hleft : (doubled mark name.toList ++ mark :: rest).drop
      ((doubled mark name.toList).length + 1) = rest := by
    simp [List.drop_append]
  rw [htext, tokensOf_of_next hread hleft]
  rfl

-- ---------------------------------------------------------------------------
-- Words
-- ---------------------------------------------------------------------------

/-- Whether a word starts at a character. -/
def startsWord (c : Char) : Bool :=
  !isBlank c && !"-/#:(),;.['$\"`".toList.contains c && !c.isDigit && (isAlphabetic c || c == '_')

/-- A letter begins a word. -/
theorem next_word {c : Char} (h : startsWord c = true) (rest : List Char) :
    next c rest = (some (ofWord (String.ofList (c :: rest.takeWhile isWordChar))),
      (rest.takeWhile isWordChar).length) := by
  have hparts := h
  simp only [startsWord, Bool.and_eq_true, Bool.not_eq_true'] at hparts
  obtain ⟨⟨⟨hblank, hspecial⟩, hdigit⟩, hletter⟩ := hparts
  -- what starts a word is neither a quotation mark nor a digit, so the word's case is left
  have hmark : (c = '"' || c = '`') = false := by
    rw [Bool.or_eq_false_iff]
    constructor
    · rw [decide_eq_false_iff_not]
      rintro rfl
      cases hspecial
    · rw [decide_eq_false_iff_not]
      rintro rfl
      cases hspecial
  unfold next
  rw [hblank, if_neg Bool.false_ne_true]
  split
  case h_13 => simp only [hmark, hdigit, hletter, Bool.false_eq_true, if_false, if_true]
  all_goals cases h

/-- A word is read to its end, and no further than there. -/
theorem tokensOf_word {c : Char} {tail rest : List Char} (hc : startsWord c = true)
    (htail : ∀ d ∈ tail, isWordChar d = true) (hrest : ∀ d ∈ rest.head?, isWordChar d = false) :
    tokensOf (c :: (tail ++ rest)) = ofWord (String.ofList (c :: tail)) :: tokensOf rest := by
  have htake : (tail ++ rest).takeWhile isWordChar = tail := by
    rw [List.takeWhile_append_of_pos htail]
    cases rest with
    | nil => simp
    | cons d more => simp [hrest d rfl]
  have hread := next_word hc (tail ++ rest)
  rw [htake] at hread
  rw [tokensOf_of_next hread List.drop_left]
  rfl

-- ---------------------------------------------------------------------------
-- Statements
-- ---------------------------------------------------------------------------

/-- Tokens that end no statement are one run. -/
theorem runs_of_none {tokens : List Located} (h : ∀ t ∈ tokens, t.token.endsStatement = false) :
    runs tokens = [tokens] := by
  induction tokens with
  | nil => rfl
  | cons t rest ih =>
    rw [runs, h t List.mem_cons_self, ih fun u hu => h u (List.mem_cons_of_mem _ hu)]
    rfl

/-- **One statement.** A text with no semicolon is one statement, of all its tokens. -/
theorem statementsOf_single {script : String} {tokens : List Token}
    (h : tokensOf script.toList = tokens ++ [Token.eof]) (hnone : Token.semicolon ∉ tokens)
    (hne : tokens ≠ []) : ∃ line, statementsOf script = [(line, tokens)] := by
  obtain ⟨inner, hinner, heof⟩ := (scanned 0 script.toList).ends
  obtain rfl : inner.map (·.token) = tokens := by
    rw [tokensOf, hinner, List.map_append] at h
    exact List.append_cancel_right h
  have hends : ∀ t ∈ inner, t.token.endsStatement = false := by
    intro t ht
    have hsemicolon : t.token ≠ Token.semicolon := fun heq => hnone (List.mem_map.2 ⟨t, ht, heq⟩)
    simp [Token.endsStatement, hsemicolon, heof t ht]
  have hsome : inner ≠ [] := by
    rintro rfl
    exact hne rfl
  refine ⟨excerpt script.toList inner, ?_⟩
  rw [statementsOf, tokenize, hinner, statements_ended, runs_of_none hends]
  simp [hsome]

end CrudGen.Sql
