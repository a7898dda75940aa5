import Mathlib.Data.List.Chain
import CrudGen.Proofs.Sql.Chunks
import CrudGen.Proofs.Sql.ClauseEdges

/-!
# Tokens — rendered and read again

Tokens are rendered as a text, as the tokens of a default are. Read as a script, the text gives these
tokens back unless one of them is not shown as it can be written (`Token.isPlain`), or a number runs
on into the dot behind it (`joins`).

Main results:

* `tokensOf_text` — one plain token is read back in front of what it does not run on into.
* `Parser.tokensOf_renderAfter` — so are plain tokens in a row.
-/

namespace CrudGen.Sql

open Lexer Text

-- ---------------------------------------------------------------------------
-- Tokens that are read
-- ---------------------------------------------------------------------------

/-- The digits of a number, with at most one dot among them and maybe a sign in front. -/
def IsNumber (digits : String) : Prop :=
  ∃ sign c more, (sign = [] ∨ sign = ['-']) ∧ c.isDigit = true ∧
    digits.toList = sign ++ number false (c :: more)

/-- Tokens of one or two characters that are always the same. -/
def fixedSymbols : List Token :=
  [.lparen, .rparen, .comma, .semicolon, .dot, .doubleColon, .brackets]

/-- What the token at a character can be. -/
inductive TokenAt (c : Char) (rest : List Char) : Token → Prop
  | word (h : startsWord c = true) :
      TokenAt c rest (ofWord (String.ofList (c :: rest.takeWhile isWordChar)))
  | quoted {name : String} (h : name.toList.length ≤ rest.length) : TokenAt c rest (.ident name)
  | string {value : String} : TokenAt c rest (.str value)
  | number {digits : String} (h : IsNumber digits) : TokenAt c rest (.num digits)
  | operator {symbol : Char} (h : symbol = '-' ∨ symbol = '/' ∨ isOperator symbol = true) :
      TokenAt c rest (.op symbol)
  | fixed {t : Token} (h : t ∈ fixedSymbols) : TokenAt c rest t

/-- A quoted name is no longer than what it is read from. -/
theorem length_quoted_le (mark : Char) (cs : List Char) :
    (quoted mark cs).1.length ≤ cs.length := by
  fun_induction quoted mark cs with
  | case1 | case2 => exact Nat.zero_le _
  | case3 more text n hread ih =>
    rw [hread] at ih
    exact Nat.succ_le_succ (Nat.le_succ_of_le ih)
  | case4 => exact Nat.zero_le _
  | case5 c rest _ text n hread ih =>
    rw [hread] at ih
    exact Nat.succ_le_succ ih

/-- A name in brackets is no longer than what it is read from. -/
theorem length_bracketed_le (cs : List Char) : (bracketed cs).1.length ≤ cs.length := by
  fun_induction bracketed cs with
  | case1 | case2 => exact Nat.zero_le _
  | case3 c rest _ text n hread ih =>
    rw [hread] at ih
    exact Nat.succ_le_succ ih

/-- What is read at a character is one of the tokens that can begin with it. -/
theorem tokenAt_next {c : Char} {rest : List Char} {t : Token} (h : (next c rest).1 = some t) :
    TokenAt c rest t := by
  by_cases hblank : isBlank c = true
  · simp [next_of_isBlank hblank] at h
  -- the readers in the order in which `next` asks for them
  unfold next at h
  rw [if_neg hblank] at h
  split at h
  · split at h
    · cases h
    · split at h
      · rename_i d more _ hd
        cases h
        exact .number ⟨['-'], d, more, .inr rfl, hd, String.toList_ofList⟩
      · cases h
        exact .operator (.inl rfl)
    · cases h
      exact .operator (.inl rfl)
  · split at h
    · cases h
    · cases h
      exact .operator (.inr (.inl rfl))
  · cases h
  · split at h
    · cases h
      exact .fixed (by decide)
    · cases h
  · cases h
    exact .fixed (by decide)
  · cases h
    exact .fixed (by decide)
  · cases h
    exact .fixed (by decide)
  · cases h
    exact .fixed (by decide)
  · cases h
    exact .fixed (by decide)
  · split at h
    · cases h
      exact .fixed (by decide)
    · cases h
      refine .quoted ?_
      rw [String.toList_ofList]
      exact length_bracketed_le rest
  · cases h
    exact .string
  · obtain ⟨text, -, rfl⟩ := Option.map_eq_some_iff.1 h
    exact .string
  · split at h
    · cases h
      refine .quoted ?_
      rw [String.toList_ofList]
      exact length_quoted_le c rest
    · split at h
      · rename_i hdigit
        cases h
        exact .number ⟨[], c, rest, .inl rfl, hdigit, String.toList_ofList⟩
      · split at h
        · obtain rfl := Option.some.inj h
          exact .word (by simp_all [startsWord])
        · split at h
          · rename_i hoperator
            cases h
            exact .operator (.inr (.inr hoperator))
          · cases h

/-- Every token of a text is read at some character of it. -/
theorem exists_tokenAt {cs : List Char} {t : Token} (h : t ∈ tokensOf cs) (ht : t ≠ .eof) :
    ∃ before c rest, cs = before ++ c :: rest ∧ TokenAt c rest t := by
  induction hlength : cs.length using Nat.strong_induction_on generalizing cs with
  | _ length ih =>
    cases cs with
    | nil =>
      rw [tokensOf_nil, List.mem_singleton] at h
      exact absurd h ht
    | cons c rest =>
      rw [tokensOf_cons, List.mem_append, Option.mem_toList] at h
      obtain hfirst | hlater := h
      · exact ⟨[], c, rest, rfl, tokenAt_next hfirst⟩
      · have hlt : (rest.drop (next c rest).2).length < length := by
          rw [← hlength, List.length_drop, List.length_cons]
          omega
        obtain ⟨before, d, more, hsplit, hat⟩ := ih _ hlt hlater rfl
        refine ⟨c :: (rest.take (next c rest).2 ++ before), d, more, ?_, hat⟩
        rw [List.cons_append, List.append_assoc, ← hsplit, List.take_append_drop]

/-- A word that is read as a name is that name. -/
theorem ident_of_ofWord {word name : String} (h : ofWord word = .ident name) : word = name := by
  rw [ofWord] at h
  split at h
  · cases h
  · split at h
    · cases h
    · exact Token.ident.inj h

/-- No name is longer than the text it is read from. -/
theorem length_le_of_ident_mem {cs : List Char} {name : String} (h : .ident name ∈ tokensOf cs) :
    name.toList.length ≤ cs.length := by
  obtain ⟨before, c, rest, rfl, hat⟩ := exists_tokenAt h Token.noConfusion
  rw [List.length_append, List.length_cons]
  generalize ht : Token.ident name = t at hat
  cases hat with
  | word =>
    obtain rfl := ident_of_ofWord ht.symm
    have hle := (List.takeWhile_sublist (p := isWordChar) (l := rest)).length_le
    rw [String.toList_ofList, List.length_cons]
    omega
  | quoted hle =>
    cases ht
    omega
  | string | number | operator => cases ht
  | fixed hfixed => simp [fixedSymbols, ← ht] at hfixed

/-- A token as the reader of tokens makes it. -/
def Token.Lexed : Token → Prop
  | .serial name => name ∈ Token.serialNames
  | .num digits => IsNumber digits
  | .op symbol => symbol = '-' ∨ symbol = '/' ∨ isOperator symbol = true
  | _ => True

/-- Tokens that are read are lexed. -/
theorem lexed_of_mem {cs : List Char} {t : Token} (h : t ∈ tokensOf cs) : t.Lexed := by
  by_cases heof : t = .eof
  · subst heof
    trivial
  obtain ⟨_, _, _, -, hat⟩ := exists_tokenAt h heof
  -- what the lexer makes of each character it starts a token with
  cases hat with
  | word =>
    rw [ofWord]
    generalize toUpper _ = upper
    split
    · trivial
    · split
      · rename_i hserial
        exact List.contains_iff_mem.1 hserial
      · trivial
  | quoted | string => trivial
  | number hnumber => exact hnumber
  | operator hoperator => exact hoperator
  | fixed hfixed =>
    simp only [fixedSymbols, List.mem_cons, List.not_mem_nil, or_false] at hfixed
    rcases hfixed with rfl | rfl | rfl | rfl | rfl | rfl | rfl <;> trivial

-- ---------------------------------------------------------------------------
-- One token
-- ---------------------------------------------------------------------------

/-- Whether a text is one word. -/
def isWordText (text : String) : Bool :=
  match text.toList with
  | [] => false
  | c :: tail => startsWord c && tail.all isWordChar

/-- Whether a token is shown as it can be written: a name that is a word of its own, or a literal
without a backslash. -/
def Token.isPlain : Token → Bool
  | .ident name => isWordText name && ofWord name == .ident name
  | .str value => !value.toList.contains '\\'
  | _ => true

/-- Whether two tokens are read as something else when nothing stands between them. -/
def joins (before after : Token) : Bool :=
  match before, after with
  | .num digits, .dot => !digits.toList.contains '.'
  | _, _ => false

/-- What stands behind a token does not go on with it. -/
def Stops (t : Token) (rest : List Char) : Prop :=
  match t with
  | .keyword _ | .serial _ | .ident _ => ∀ d ∈ rest.head?, isWordChar d = false
  | .str _ => rest.head? ≠ some '\''
  | .num digits => ∀ d ∈ rest.head?, d.isDigit = false ∧ (d = '.' → '.' ∈ digits.toList)
  | .op _ => ∀ d ∈ rest.head?, d ≠ '-' ∧ d ≠ '*' ∧ d.isDigit = false
  | _ => True

/-- A literal is read up to its end, if it has no backslash. -/
theorem literal_doubled {cs rest : List Char} (hcs : '\\' ∉ cs) (hrest : rest.head? ≠ some '\'') :
    literal (doubled '\'' cs ++ '\'' :: rest) = (cs, (doubled '\'' cs).length + 1) := by
  induction cs with
  | nil =>
    rw [doubled, List.nil_append]
    cases rest with
    | nil => simp [literal]
    | cons d more =>
      have hd : d ≠ '\'' := by simpa using hrest
      simp [literal, hd]
  | cons c cs ih =>
    rw [List.mem_cons, not_or] at hcs
    rw [doubled]
    -- a quotation mark is written twice and read as one; no backslash is there to escape it
    split
    · rename_i hc
      subst hc
      rw [List.cons_append, List.cons_append, literal, ih hcs.2]
      rfl
    · rename_i hc
      rw [List.cons_append, literal_cons hc (Ne.symm hcs.1), ih hcs.2]
      rfl

/-- Digits are read up to their end. -/
theorem number_number {dotted : Bool} {cs rest : List Char}
    (hrest : ∀ d ∈ rest.head?, d.isDigit = false ∧
      (d = '.' → dotted = true ∨ '.' ∈ number dotted cs)) :
    number dotted (number dotted cs ++ rest) = number dotted cs := by
  -- a number stops at what follows it
  have hend {dotted : Bool} (h : ∀ d ∈ rest.head?, d.isDigit = false ∧ (d = '.' → dotted = true)) :
      number dotted rest = [] := by
    cases rest with
    | nil => rfl
    | cons d more =>
      obtain ⟨hdigit, hdot⟩ := h d rfl
      rw [number, if_neg (by simp [hdigit]), if_neg]
      rw [Bool.and_eq_true, beq_iff_eq, Bool.not_eq_true']
      exact fun hboth => by simp [hdot hboth.1] at hboth
  -- a second dot ends a number, so whether one was read is carried along
  fun_induction number dotted cs with
  | case1 => exact hend fun d hd => ⟨(hrest d hd).1, fun hdot => by simpa using (hrest d hd).2 hdot⟩
  | case2 dotted c rest' hc ih =>
    rw [List.cons_append, number, if_pos hc, ih]
    refine fun d hd => ⟨(hrest d hd).1, fun hdot => ((hrest d hd).2 hdot).imp_right fun hmem => ?_⟩
    rcases List.mem_cons.1 hmem with rfl | hmem
    · cases hc
    · exact hmem
  | case3 dotted c rest' hc hdot ih =>
    rw [List.cons_append, number, if_neg hc, if_pos hdot, ih]
    exact fun d hd => ⟨(hrest d hd).1, fun _ => .inl rfl⟩
  | case4 dotted c rest' hc hdot =>
    exact hend fun d hd => ⟨(hrest d hd).1, fun hdot => by simpa using (hrest d hd).2 hdot⟩

/-- A word is read back in front of what is no part of a word. -/
theorem tokensOf_wordText {text : String} {rest : List Char} (h : isWordText text = true)
    (hrest : ∀ d ∈ rest.head?, isWordChar d = false) :
    tokensOf (text.toList ++ rest) = ofWord text :: tokensOf rest := by
  unfold isWordText at h
  split at h
  · cases h
  · rename_i c tail htext
    rw [Bool.and_eq_true, List.all_eq_true] at h
    rw [htext, List.cons_append, tokensOf_word h.1 h.2 hrest, ← htext, String.ofList_toList]

/-- A digit begins a number. -/
theorem next_digit {c : Char} (hc : c.isDigit = true) (rest : List Char) :
    next c rest = (some (.num (String.ofList (number false (c :: rest)))),
      (number false rest).length) := by
  have hmark : c ∉ marks := by
    intro hmem
    have hnone := List.all_eq_true.1 (by decide +kernel : marks.all (!·.isDigit) = true) c hmem
    rw [hc] at hnone
    cases hnone
  have hblank : isBlank c = false := by
    simp only [Char.isDigit, Bool.and_eq_true, decide_eq_true_eq] at hc
    have hfirst : 48 ≤ c.toNat := hc.1
    have hlast : c.toNat ≤ 57 := hc.2
    simp only [isBlank, inRanges, blankRanges, List.any_cons, List.any_nil, Bool.or_false,
      Bool.or_eq_false_iff, Bool.and_eq_false_iff, decide_eq_false_iff_not]
    omega
  rw [next_eq hmark hblank]
  dsimp only
  rw [if_pos hc, number, if_pos hc]
  rfl

/-- A number is read up to its end. -/
theorem tokensOf_number {digits : String} (rest : List Char) (h : IsNumber digits)
    (hrest : ∀ d ∈ rest.head?, d.isDigit = false ∧ (d = '.' → '.' ∈ digits.toList)) :
    tokensOf (digits.toList ++ rest) = .num digits :: tokensOf rest := by
  obtain ⟨sign, c, more, hsign, hc, hdigits⟩ := h
  have hread : number false (number false (c :: more) ++ rest) = number false (c :: more) := by
    refine number_number fun d hd => ⟨(hrest d hd).1, fun hdot => .inr ?_⟩
    have hmem := (hrest d hd).2 hdot
    rw [hdigits, List.mem_append] at hmem
    rcases hmem with hmem | hmem
    -- the sign is no dot
    · rcases hsign with rfl | rfl <;> simp at hmem
    · exact hmem
  have hcons : number false (c :: more) = c :: number false more := by
    rw [number, if_pos hc]
  rw [hcons] at hread hdigits
  have hnumber : number false (number false more ++ rest) = number false more := by
    rw [List.cons_append, number, if_pos hc] at hread
    exact List.tail_eq_of_cons_eq hread
  obtain rfl | rfl := hsign
  -- with and without a sign, the token is the text that was read
  · have hnext := next_digit hc (number false more ++ rest)
    rw [← List.cons_append, hread, hnumber] at hnext
    rw [hdigits, List.nil_append, List.cons_append, tokensOf_of_next hnext List.drop_left]
    rw [List.nil_append] at hdigits
    rw [← hdigits, String.ofList_toList]
    rfl
  · have hnext : next '-' (c :: number false more ++ rest) =
        (some (.num (String.ofList ('-' :: c :: number false more))),
          (c :: number false more).length) := by
      have hdash : c ≠ '-' := by
        rintro rfl
        cases hc
      have hblank : isBlank '-' = false := rfl
      have hread' : number false (c :: (number false more ++ rest)) = c :: number false more :=
        hread
      simp [next, hblank, hc, hread']
    rw [hdigits, List.append_assoc]
    change tokensOf ('-' :: (c :: number false more ++ rest)) = _
    rw [tokensOf_of_next hnext List.drop_left]
    have htext : '-' :: c :: number false more = digits.toList := hdigits.symm
    rw [htext, String.ofList_toList]
    rfl

/-- A token that is shown as it can be written is read back, up to where it stops. -/
-- what the text of a token must not run into is what `Stops` says, kind by kind
theorem tokensOf_text {t : Token} {rest : List Char} (hlexed : t.Lexed) (heof : t ≠ .eof)
    (hplain : t.isPlain = true) (hstops : Stops t rest) :
    tokensOf (t.text.toList ++ rest) = t :: tokensOf rest := by
  cases t with
  | keyword k =>
    have hword : ∀ k : Keyword, isWordText k.text = true ∧ ofWord k.text = .keyword k := by
      intro k
      cases k <;> decide +kernel
    exact (tokensOf_wordText (hword k).1 hstops).trans (congrArg (· :: _) (hword k).2)
  | serial name =>
    have hword : ∀ name ∈ Token.serialNames, isWordText name = true ∧ ofWord name = .serial name := by
      decide +kernel
    have hname := hword name hlexed
    exact (tokensOf_wordText hname.1 hstops).trans (congrArg (· :: _) hname.2)
  | ident name =>
    rw [Token.isPlain, Bool.and_eq_true, beq_iff_eq] at hplain
    exact (tokensOf_wordText hplain.1 hstops).trans (congrArg (· :: _) hplain.2)
  | str value =>
    have hvalue : '\\' ∉ value.toList := by
      simpa [Token.isPlain] using hplain
    have hnext : next '\'' (doubled '\'' value.toList ++ '\'' :: rest) =
        (some (.str value), (doubled '\'' value.toList).length + 1) := by
      change (some (Token.str (String.ofList (literal _).1)), (literal _).2) = _
      rw [literal_doubled hvalue hstops, String.ofList_toList]
    have htext : (Token.str value).text.toList ++ rest =
        '\'' :: (doubled '\'' value.toList ++ '\'' :: rest) := by
      simp [Token.text, enclosed]
    have hleft : (doubled '\'' value.toList ++ '\'' :: rest).drop
        ((doubled '\'' value.toList).length + 1) = rest := by
      simp [List.drop_append]
    rw [htext, tokensOf_of_next hnext hleft]
    rfl
  -- a name in quotes is not plain, so it is a word here
  | num digits => exact tokensOf_number rest hlexed hstops
  | op symbol =>
    have hnext : next symbol rest = (some (.op symbol), 0) := by
      have hblank : isBlank '-' = false ∧ isBlank '/' = false := ⟨rfl, rfl⟩
      -- `-` and `/` may begin a comment or a number, which the next character must not make of them
      obtain rfl | rfl | hsymbol := hlexed
      · cases rest with
        | nil => rfl
        | cons d more =>
          obtain ⟨hdash, -, hdigit⟩ := hstops d rfl
          simp [next, hblank, hdigit]
      · cases rest with
        | nil => rfl
        | cons d more =>
          obtain ⟨-, hstar, -⟩ := hstops d rfl
          simp [next, hblank, hstar]
      · have hcases : ∀ c ∈ "=+*<>!|%&".toList, next c rest = (some (.op c), 0) := by
          intro c hc
          have hc' : c ∈ ['=', '+', '*', '<', '>', '!', '|', '%', '&'] := hc
          simp only [List.mem_cons, List.not_mem_nil, or_false] at hc'
          rcases hc' with rfl | rfl | rfl | rfl | rfl | rfl | rfl | rfl | rfl <;> rfl
        exact hcases symbol (List.contains_iff_mem.1 hsymbol)
    have htext : (Token.op symbol).text.toList ++ rest = symbol :: rest := by
      simp [Token.text, Char.toString]
    rw [htext, tokensOf_of_next hnext rfl]
    rfl
  | eof => exact absurd rfl heof
  | lparen => exact tokensOf_lparen rest
  | rparen => exact tokensOf_rparen rest
  | comma => exact tokensOf_comma rest
  | semicolon =>
    have hnext : next ';' rest = (some .semicolon, 0) := rfl
    exact tokensOf_of_next hnext rfl
  | dot =>
    have hnext : next '.' rest = (some .dot, 0) := rfl
    exact tokensOf_of_next hnext rfl
  | doubleColon =>
    have hnext : next ':' (':' :: rest) = (some .doubleColon, 1) := rfl
    exact tokensOf_of_next hnext rfl
  | brackets =>
    have hnext : next '[' (']' :: rest) = (some .brackets, 1) := rfl
    exact tokensOf_of_next hnext rfl

-- ---------------------------------------------------------------------------
-- Runs of tokens
-- ---------------------------------------------------------------------------

namespace Parser

/-- A token is rendered with a blank before it if it is spaced. -/
theorem toList_renderAfter (t after : Token) (more : List Token) :
    (renderAfter t (after :: more)).toList =
      (if spaced t after then [' '] else []) ++
        (after.text.toList ++ (renderAfter after more).toList) := by
  rw [renderAfter, String.toList_append, String.toList_append, List.append_assoc]
  cases spaced t after <;> rfl

/-- What is rendered behind a token begins with a blank or with a symbol. -/
theorem head_renderAfter {t after : Token} (ht : t ∉ [Token.lparen, .doubleColon, .dot])
    (more : List Token) : ∃ d rest, (renderAfter t (after :: more)).toList = d :: rest ∧
      d ∈ [' ', ')', ',', ':', '[', '.', '('] ∧ (d = '.' → after = .dot) := by
  simp only [List.mem_cons, List.not_mem_nil, or_false, not_or] at ht
  rw [toList_renderAfter]
  cases hspaced : spaced t after with
  | true => exact ⟨' ', _, rfl, by decide, fun h => absurd h (by decide)⟩
  -- a blank is put in between, or the token behind has a mark for its first character
  | false =>
    unfold spaced at hspaced
    split at hspaced
    · exact ⟨')', _, rfl, by decide, by decide⟩
    · exact ⟨',', _, rfl, by decide, by decide⟩
    · exact ⟨':', _, rfl, by decide, by decide⟩
    · exact ⟨'[', _, rfl, by decide, by decide⟩
    · exact ⟨'.', _, rfl, by decide, fun _ => rfl⟩
    · exact absurd rfl ht.1
    · exact absurd rfl ht.2.1
    · exact absurd rfl ht.2.2
    · exact ⟨'(', _, rfl, by decide, by decide⟩
    · cases hspaced

/-- What is rendered behind a token does not go on with it, unless it is a number in front of a
dot. -/
theorem stops_renderAfter {t : Token} {ts : List Token}
    (h : ∀ after ∈ ts.head?, joins t after = false) : Stops t (renderAfter t ts).toList := by
  cases ts with
  | nil => cases t <;> simp [Stops, renderAfter]
  | cons after more =>
    by_cases ht : t ∈ [Token.lparen, .doubleColon, .dot]
    · simp only [List.mem_cons, List.not_mem_nil, or_false] at ht
      rcases ht with rfl | rfl | rfl <;> trivial
    -- what is put behind a token begins with one of a few characters, none of which goes on a word
    obtain ⟨d, rest, htext, hd, hdot⟩ := head_renderAfter ht more
    have hall : [' ', ')', ',', ':', '[', '.', '('].all (fun d =>
        !isWordChar d && !d.isDigit && d != '-' && d != '*' && d != '\'') = true := by
      decide +kernel
    have hother := List.all_eq_true.1 hall d hd
    simp only [Bool.and_eq_true, Bool.not_eq_true', bne_iff_ne] at hother
    obtain ⟨⟨⟨⟨hword, hnodigit⟩, hdash⟩, hstar⟩, hquote⟩ := hother
    rw [htext]
    cases t with
    | keyword | serial | ident =>
      rintro e ⟨⟩
      exact hword
    | str value => simpa [Stops] using hquote
    | num digits =>
      rintro e ⟨⟩
      -- a dot behind a number is the token that is joined to it
      refine ⟨hnodigit, fun heq => ?_⟩
      obtain rfl := hdot heq
      simpa [joins] using h .dot rfl
    | op symbol =>
      rintro e ⟨⟩
      exact ⟨hdash, hstar, hnodigit⟩
    | _ => trivial

/-- A run is rendered as it is behind an opening parenthesis. -/
theorem render_eq (ts : List Token) : render ts = renderAfter .lparen ts := by
  cases ts with
  | nil => rfl
  | cons t rest =>
    have hspaced : spaced .lparen t = false := by
      cases t <;> rfl
    rw [renderAfter, hspaced]
    rfl

/-- Neighbours that are read one by one. -/
def Apart (ts : List Token) : Prop :=
  ts.IsChain fun before after => joins before after = false

/-- Tokens that stand apart do so up to any of them. -/
theorem Apart.initial {ts part : List Token} (h : Apart ts) (hpart : part <+: ts) : Apart part :=
  List.IsChain.prefix h hpart

/-- Plain tokens are read back one by one, up to what is rendered behind them. -/
theorem tokensOf_renderAfter {ts : List Token} (more : List Token)
    (hlexed : ∀ t ∈ ts, t.Lexed ∧ t ≠ .eof) (hplain : ∀ t ∈ ts, t.isPlain = true)
    (hapart : Apart (ts ++ more.take 1)) (before : Token) :
    tokensOf (renderAfter before (ts ++ more)).toList =
      ts ++ tokensOf (renderAfter (ts.getLastD before) more).toList := by
  induction ts generalizing before with
  | nil => rfl
  | cons t rest ih =>
    rw [List.forall_mem_cons] at hlexed hplain
    rw [List.cons_append, Apart, List.isChain_cons] at hapart
    have hstops : Stops t (renderAfter t (rest ++ more)).toList := by
      refine stops_renderAfter fun after hafter => hapart.1 after ?_
      cases rest with
      | nil =>
        cases more with
        | nil => cases hafter
        | cons a more => exact hafter
      | cons a rest => exact hafter
    have hread := tokensOf_text hlexed.1.1 hlexed.1.2 hplain.1 hstops
    have hlast : (t :: rest).getLastD before = rest.getLastD t := by
      cases rest <;> rfl
    rw [List.cons_append, toList_renderAfter, hlast]
    -- a blank between two tokens is no token itself
    split
    · rw [List.cons_append, List.nil_append, tokensOf_blank, hread, ih hlexed.2 hplain.2 hapart.2]
      rfl
    · rw [List.nil_append, hread, ih hlexed.2 hplain.2 hapart.2]
      rfl

/-- One token is rendered as its text. -/
theorem tokensOf_renderAfter_single (before t : Token) :
    tokensOf (renderAfter before [t]).toList = tokensOf t.text.toList := by
  rw [toList_renderAfter, renderAfter, String.toList_empty, List.append_nil]
  split
  · exact tokensOf_blank _
  · rfl

end Parser

end CrudGen.Sql
