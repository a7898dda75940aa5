import CrudGen.Sql.Lexer
import CrudGen.Text.Basic
import Mathlib.Data.List.TakeWhile

/-!
# Tokens — what is read at one character

A literal, a quoted or bracketed name, a body between dollar tags or a comment may be `unclosed`: it
goes on to the end of the text. `Reads` collects what is known of the reader that `next` chooses for
a character: it takes no more than there is, and a semicolon behind the text is the end for it
unless something is unclosed, and is swallowed if something is.

Main result:

* `reads_next` — so reads `next`, whatever the character.
-/

namespace CrudGen.Sql.Lexer

open CrudGen.Text

-- ---------------------------------------------------------------------------
-- What is closed
-- ---------------------------------------------------------------------------

/-- Whether the quote that ends a quoted name is among the characters after the opening one. -/
def closesQuoted (quote : Char) : List Char → Bool
  | [] => false
  | c :: rest =>
    if c = quote then
      match rest with
      | [] => true
      | d :: more => if d = quote then closesQuoted quote more else true
    else closesQuoted quote rest

/-- Whether the quote that ends a string literal is among the characters after the opening one. -/
def closesLiteral : List Char → Bool
  | [] => false
  | c :: rest =>
    if c = '\'' then
      match rest with
      | [] => true
      | d :: more => if d = '\'' then closesLiteral more else true
    else if c = '\\' then
      match rest with
      | [] => false
      | _ :: more => closesLiteral more
    else closesLiteral rest

/-- Whether a literal, a quoted or bracketed name, a body between dollar tags or a comment that
starts at `c` goes on to the end of the text. -/
def unclosed (c : Char) (rest : List Char) : Bool :=
  match c with
  | '-' =>
    match rest with
    | '-' :: more => !occursIn ['\n'] more
    | _ => false
  | '/' =>
    match rest with
    | '*' :: more => !occursIn ['*', '/'] more
    | _ => false
  | '#' => !occursIn ['\n'] rest
  | '[' => !occursIn [']'] rest
  | '\'' => !closesLiteral rest
  | '"' => !closesQuoted '"' rest
  | '`' => !closesQuoted '`' rest
  | '$' =>
    let tag := rest.takeWhile fun c => isAlphanumeric c || c == '_'
    match rest.drop tag.length with
    | '$' :: body => !occursIn ('$' :: tag ++ ['$']) body
    | _ => false
  | _ => false

/-- What a reader of the characters after the first one does: it takes some of them and makes no end
of input. A semicolon after the text is the end for it, or is taken too if something is open. -/
structure Reads (read : List Char → Option Token × Nat) (isOpen : List Char → Bool) : Prop where
  le     : ∀ cs, (read cs).2 ≤ cs.length
  token  : ∀ cs, (read cs).1 ≠ some .eof
  closed : ∀ cs more, isOpen cs = false → read (cs ++ ';' :: more) = read cs
  opened : ∀ cs more, isOpen cs = true → cs.length < (read (cs ++ ';' :: more)).2

/-- A blank is read as nothing. -/
theorem next_of_isBlank {c : Char} (h : isBlank c = true) (rest : List Char) :
    next c rest = (none, 0) := by
  simp [next, h]

-- ---------------------------------------------------------------------------
-- Up to a delimiter
-- ---------------------------------------------------------------------------

/-- No delimiter without a semicolon reaches over one. -/
theorem isPrefixOf_append {part : List Char} (h : ';' ∉ part) (cs more : List Char) :
    part.isPrefixOf (cs ++ ';' :: more) = part.isPrefixOf cs := by
  induction part generalizing cs with
  | nil => rfl
  | cons p rest ih =>
    rw [List.mem_cons, not_or] at h
    cases cs with
    | nil => simp [List.isPrefixOf, Ne.symm h.1]
    | cons c cs => simp [List.isPrefixOf, ih h.2]

/-- A search reads no more than there is. -/
theorem length_upTo_le (delimiter cs : List Char) : (upTo delimiter cs).2 ≤ cs.length := by
  fun_induction upTo delimiter cs with
  | case1 => exact Nat.le_refl _
  | case2 c rest hfound => exact (List.isPrefixOf_iff_prefix.1 hfound).length_le
  | case3 c rest _ text n hread ih =>
    rw [hread] at ih
    exact Nat.succ_le_succ ih

/-- What is found before a semicolon is found with anything behind it. -/
theorem upTo_append {delimiter cs : List Char} (hnone : ';' ∉ delimiter) (hne : delimiter ≠ [])
    (more : List Char) (h : occursIn delimiter cs = true) :
    upTo delimiter (cs ++ ';' :: more) = upTo delimiter cs := by
  induction cs with
  | nil => exact absurd (List.isEmpty_iff.1 h) hne
  | cons c rest ih =>
    have hprefix := isPrefixOf_append hnone (c :: rest) more
    rw [List.cons_append] at hprefix ⊢
    rw [upTo, upTo, hprefix]
    split
    · rfl
    · rename_i hno
      rw [occursIn, Bool.or_eq_true, or_iff_right hno] at h
      rw [ih h]

/-- What is not found before a semicolon is searched for behind it. -/
theorem lt_upTo_append {delimiter cs : List Char} (hnone : ';' ∉ delimiter) (hne : delimiter ≠ [])
    (more : List Char) (h : occursIn delimiter cs = false) :
    cs.length < (upTo delimiter (cs ++ ';' :: more)).2 := by
  induction cs with
  | nil =>
    have hprefix := isPrefixOf_append hnone [] more
    cases delimiter with
    | nil => exact absurd rfl hne
    | cons d rest =>
      rw [List.nil_append] at hprefix ⊢
      rw [upTo, hprefix, if_neg (by simp)]
      exact Nat.succ_pos _
  | cons c rest ih =>
    have hprefix := isPrefixOf_append hnone (c :: rest) more
    rw [occursIn, Bool.or_eq_false_iff] at h
    rw [List.cons_append] at hprefix ⊢
    rw [upTo, hprefix, h.1, if_neg Bool.false_ne_true]
    exact Nat.succ_lt_succ (ih h.2)

/-- What a reader up to a delimiter makes of the text before it, a `skip` of more characters. -/
theorem reads_upTo {delimiter : List Char} (hnone : ';' ∉ delimiter) (hne : delimiter ≠ [])
    (token : List Char → Option Token) (htoken : ∀ text, token text ≠ some .eof) :
    Reads (fun cs => (token (upTo delimiter cs).1, (upTo delimiter cs).2))
      (fun cs => !occursIn delimiter cs) where
  le := length_upTo_le delimiter
  token _ := htoken _
  closed cs more h := by
    rw [upTo_append hnone hne more (by simpa using h)]
  opened cs more h := lt_upTo_append hnone hne more (by simpa using h)

/-- A comment of one line ends at a break. -/
theorem lineComment_eq (cs : List Char) : lineComment cs = (upTo ['\n'] cs).2 := by
  induction cs with
  | nil => rfl
  | cons c rest ih =>
    by_cases hc : c = '\n'
    · simp [lineComment, upTo, hc]
    · simp [lineComment, upTo, hc, Ne.symm hc, ih]

/-- A comment of several lines ends at a star with a slash behind it. -/
theorem blockComment_eq (cs : List Char) : blockComment cs = (upTo ['*', '/'] cs).2 := by
  fun_induction blockComment cs with
  | case1 => rfl
  | case2 rest => simp [upTo]
  | case3 c rest hno ih =>
    have hprefix : (['*', '/'] : List Char).isPrefixOf (c :: rest) = false := by
      cases rest with
      | nil => simp [List.isPrefixOf]
      | cons d more =>
        rw [Bool.eq_false_iff]
        intro hfound
        simp only [List.isPrefixOf, Bool.and_eq_true, beq_iff_eq] at hfound
        exact hno more hfound.1.symm (hfound.2.1 ▸ rfl)
    rw [upTo, hprefix, if_neg Bool.false_ne_true, ih]

/-- A name in brackets ends at the closing one. -/
theorem bracketed_eq (cs : List Char) : bracketed cs = upTo [']'] cs := by
  induction cs with
  | nil => rfl
  | cons c rest ih =>
    by_cases hc : c = ']'
    · simp [bracketed, upTo, hc]
    · simp [bracketed, upTo, hc, Ne.symm hc, ih]

/-- A comment of one line that is closed does not see what stands behind the semicolon. -/
theorem reads_lineComment :
    Reads (fun cs => (none, lineComment cs)) (fun cs => !occursIn ['\n'] cs) := by
  simp only [lineComment_eq]
  exact reads_upTo (by decide) (by decide) (fun _ => none) (by simp)

theorem reads_blockComment :
    Reads (fun cs => (none, blockComment cs)) (fun cs => !occursIn ['*', '/'] cs) := by
  simp only [blockComment_eq]
  exact reads_upTo (by decide) (by decide) (fun _ => none) (by simp)

-- ---------------------------------------------------------------------------
-- Quoted names and literals
-- ---------------------------------------------------------------------------

/-- A character inside a quoted name stands for itself. -/
theorem quoted_cons {quote c : Char} (h : c ≠ quote) (rest : List Char) :
    quoted quote (c :: rest) = (c :: (quoted quote rest).1, (quoted quote rest).2 + 1) := by
  rw [quoted.eq_def]
  exact if_neg h

/-- A quoted name that is closed does not see what stands behind the semicolon. -/
theorem reads_quoted {quote : Char} (hquote : ';' ≠ quote) :
    Reads (fun cs => (some (.ident (String.ofList (quoted quote cs).1)), (quoted quote cs).2))
      (fun cs => !closesQuoted quote cs) where
  le cs := by
    dsimp only
    fun_induction quoted quote cs <;> simp_all
  token _ := by simp
  closed cs more h := by
    rw [Bool.not_eq_false'] at h
    have hsame : quoted quote (cs ++ ';' :: more) = quoted quote cs := by
      -- up to the quotation mark that closes it, nothing behind is looked at
      fun_induction closesQuoted quote cs with
      | case1 => cases h
      | case2 => simp [quoted, hquote]
      | case3 rest ih => simp [quoted, ih h]
      | case4 d rest hd => simp [quoted, hd]
      | case5 c rest hc ih => rw [List.cons_append, quoted_cons hc, quoted_cons hc, ih h]
    rw [hsame]
  opened cs more h := by
    rw [Bool.not_eq_true'] at h
    dsimp only
    -- without one the name goes on beyond the semicolon
    fun_induction closesQuoted quote cs with
    | case1 => simp [quoted_cons hquote]
    | case2 => cases h
    | case3 rest ih => simpa [quoted] using ih h
    | case4 => cases h
    | case5 c rest hc ih =>
      rw [List.cons_append, quoted_cons hc]
      exact Nat.succ_lt_succ (ih h)

/-- A character inside a literal stands for itself. -/
theorem literal_cons {c : Char} (hquote : c ≠ '\'') (hslash : c ≠ '\\') (rest : List Char) :
    literal (c :: rest) = (c :: (literal rest).1, (literal rest).2 + 1) := by
  simp [literal, hquote, hslash]

/-- A literal that is closed does not see what stands behind the semicolon. -/
theorem reads_literal :
    Reads (fun cs => (some (.str (String.ofList (literal cs).1)), (literal cs).2))
      (fun cs => !closesLiteral cs) where
  le cs := by
    dsimp only
    fun_induction literal cs <;> simp_all
  token _ := by simp
  closed cs more h := by
    rw [Bool.not_eq_false'] at h
    have hsame : literal (cs ++ ';' :: more) = literal cs := by
      -- two quotation marks in a row stay inside, as does what a backslash escapes
      fun_induction closesLiteral cs with
      | case1 => cases h
      | case2 => simp [literal]
      | case3 rest ih => simp [literal, ih h]
      | case4 d rest hd => simp [literal, hd]
      | case5 => cases h
      | case6 d rest _ ih => simp [literal, ih h]
      | case7 c rest hquote hslash ih =>
        rw [List.cons_append, literal_cons hquote hslash, literal_cons hquote hslash, ih h]
    rw [hsame]
  opened cs more h := by
    rw [Bool.not_eq_true'] at h
    dsimp only
    -- an open literal reads the semicolon, also behind a backslash
    fun_induction closesLiteral cs with
    | case1 => simp [literal_cons]
    | case2 => cases h
    | case3 rest ih => simpa [literal] using ih h
    | case4 => cases h
    | case5 => simp [literal]
    | case6 d rest _ ih => simpa [literal] using ih h
    | case7 c rest hquote hslash ih =>
      rw [List.cons_append, literal_cons hquote hslash]
      exact Nat.succ_lt_succ (ih h)

-- ---------------------------------------------------------------------------
-- Runs of characters
-- ---------------------------------------------------------------------------

/-- A semicolon ends a run of characters that it is none of. -/
theorem takeWhile_append {p : Char → Bool} (h : p ';' = false) (cs more : List Char) :
    (cs ++ ';' :: more).takeWhile p = cs.takeWhile p := by
  rw [List.takeWhile_append]
  split
  · rename_i hall
    rw [(List.takeWhile_prefix p).eq_of_length hall, List.takeWhile_cons, h]
    exact List.append_nil cs
  · rfl

/-- A number ends before a semicolon. -/
theorem number_append (dotted : Bool) (cs more : List Char) :
    number dotted (cs ++ ';' :: more) = number dotted cs := by
  induction cs generalizing dotted with
  | nil => rfl
  | cons c rest ih => rw [List.cons_append, number, number, ih, ih]

/-- A number reads no more than there is. -/
theorem length_number_le (dotted : Bool) (cs : List Char) :
    (number dotted cs).length ≤ cs.length := by
  fun_induction number dotted cs <;> simp_all

/-- A reader that nothing can leave open. -/
theorem reads_run {read : List Char → Option Token × Nat} (hle : ∀ cs, (read cs).2 ≤ cs.length)
    (htoken : ∀ cs, (read cs).1 ≠ some .eof)
    (happend : ∀ cs more, read (cs ++ ';' :: more) = read cs) : Reads read fun _ => false :=
  ⟨hle, htoken, fun cs more _ => happend cs more, fun _ _ h => absurd h Bool.false_ne_true⟩

/-- A reader that takes nothing. -/
theorem reads_const (token : Option Token) (h : token ≠ some .eof) :
    Reads (fun _ => (token, 0)) fun _ => false :=
  reads_run (fun _ => Nat.zero_le _) (fun _ => h) fun _ _ => rfl

-- ---------------------------------------------------------------------------
-- The reader of a character
-- ---------------------------------------------------------------------------

/-- A reader that reads in one way behind a mark and in another way elsewhere. -/
theorem reads_behind {read inner outer : List Char → Option Token × Nat}
    {isOpen innerOpen outerOpen : List Char → Bool} (mark : Char) (hmark : ';' ≠ mark)
    (hinner : Reads inner innerOpen) (houter : Reads outer outerOpen)
    (hread : ∀ more, read (mark :: more) = ((inner more).1, (inner more).2 + 1))
    (hopen : ∀ more, isOpen (mark :: more) = innerOpen more)
    (hread' : ∀ cs, cs.head? ≠ some mark → read cs = outer cs)
    (hopen' : ∀ cs, cs.head? ≠ some mark → isOpen cs = outerOpen cs) : Reads read isOpen := by
  -- the mark is the first character of `cs`, or of neither `cs` nor what is appended
  have hcases (cs : List Char) : (∃ more, cs = mark :: more) ∨
      cs.head? ≠ some mark ∧ ∀ more, (cs ++ ';' :: more).head? ≠ some mark := by
    cases cs with
    | nil => exact .inr ⟨by simp, fun _ => by simpa using hmark⟩
    | cons c rest =>
      by_cases hc : c = mark
      · exact .inl ⟨rest, hc ▸ rfl⟩
      · exact .inr ⟨by simpa using hc, fun _ => by simpa using hc⟩
  refine ⟨fun cs => ?_, fun cs => ?_, fun cs more h => ?_, fun cs more h => ?_⟩
  all_goals obtain ⟨rest, rfl⟩ | ⟨hcs, hcs'⟩ := hcases cs
  · rw [hread]
    exact Nat.succ_le_succ (hinner.le rest)
  · rw [hread' cs hcs]
    exact houter.le cs
  · rw [hread]
    exact hinner.token rest
  · rw [hread' cs hcs]
    exact houter.token cs
  · rw [hopen] at h
    rw [List.cons_append, hread, hread, hinner.closed rest more h]
  · rw [hopen' cs hcs] at h
    rw [hread' cs hcs, hread' _ (hcs' more), houter.closed cs more h]
  · rw [hopen] at h
    rw [List.cons_append, hread]
    exact Nat.succ_lt_succ (hinner.opened rest more h)
  · rw [hopen' cs hcs] at h
    rw [hread' _ (hcs' more)]
    exact houter.opened cs more h

/-- A minus sign begins a comment, a number or an operator. -/
theorem reads_dash : Reads (next '-') (unclosed '-') := by
  have hsign : Reads (fun cs =>
      if cs.head?.any Char.isDigit = true then
        (some (.num (String.ofList ('-' :: number false cs))), (number false cs).length)
      else (some (.op '-'), 0)) fun _ => false := by
    -- a digit behind the sign makes a number, which the semicolon ends
    refine reads_run (fun cs => ?_) (fun cs => ?_) fun cs more => ?_
    · split
      · exact length_number_le false cs
      · exact Nat.zero_le _
    · split <;> simp
    · have hhead : (cs ++ ';' :: more).head?.any Char.isDigit = cs.head?.any Char.isDigit := by
        cases cs <;> rfl
      rw [hhead, number_append]
  have hblank : isBlank '-' = false := rfl
  -- two signs begin a comment, which may be left open
  refine reads_behind '-' (by decide) reads_lineComment hsign (fun more => rfl)
    (fun more => rfl) (fun cs h => ?_) fun cs h => ?_
  all_goals
    cases cs with
    | nil => rfl
    | cons c rest =>
      have hc : c ≠ '-' := by simpa using h
      simp [next, unclosed, hc, hblank]

/-- A slash begins a comment or is an operator. -/
theorem reads_slash : Reads (next '/') (unclosed '/') := by
  have hblank : isBlank '/' = false := rfl
  refine reads_behind '*' (by decide) reads_blockComment
    (reads_const (some (.op '/')) (by simp)) (fun more => rfl) (fun more => rfl)
    (fun cs h => ?_) fun cs h => ?_
  all_goals
    cases cs with
    | nil => rfl
    | cons c rest =>
      have hc : c ≠ '*' := by simpa using h
      simp [next, unclosed, hc, hblank]

/-- A colon alone is nothing. -/
theorem reads_colon : Reads (next ':') (unclosed ':') := by
  have hblank : isBlank ':' = false := rfl
  refine reads_behind ':' (by decide) (reads_const (some .doubleColon) (by simp))
    (reads_const none (by simp)) (fun more => rfl) (fun more => rfl)
    (fun cs h => ?_) fun cs h => rfl
  cases cs with
  | nil => rfl
  | cons c rest =>
    have hc : c ≠ ':' := by simpa using h
    simp [next, hc, hblank]

/-- A bracket begins a name or an array suffix. -/
theorem reads_bracket : Reads (next '[') (unclosed '[') := by
  have hblank : isBlank '[' = false := rfl
  have hname : Reads (fun cs => (some (.ident (String.ofList (bracketed cs).1)), (bracketed cs).2))
      fun cs => !occursIn [']'] cs := by
    simp only [bracketed_eq]
    exact reads_upTo (by decide) (by decide) (fun text => some (.ident (String.ofList text)))
      (by simp)
  refine reads_behind ']' (by decide) (reads_const (some .brackets) (by simp))
    hname (fun more => rfl) (fun more => rfl) (fun cs h => ?_) fun cs h => rfl
  cases cs with
  | nil => rfl
  | cons c rest =>
    have hc : c ≠ ']' := by simpa using h
    simp [next, hc, hblank]

/-- The reader behind a tag: a second dollar sign begins the body. -/
def bodyOf (tag : List Char) : List Char → Option Token × Nat
  | '$' :: body =>
    (some (.str (String.ofList (upTo ('$' :: tag ++ ['$']) body).1)),
      (upTo ('$' :: tag ++ ['$']) body).2 + 1)
  | _ => (none, 0)

/-- Whether the body behind a tag goes on to the end of the text. -/
def bodyUnclosed (tag : List Char) : List Char → Bool
  | '$' :: body => !occursIn ('$' :: tag ++ ['$']) body
  | _ => false

/-- A body between two tags that are closed does not see what stands behind the semicolon. -/
theorem reads_bodyOf {tag : List Char} (h : ';' ∉ tag) :
    Reads (bodyOf tag) (bodyUnclosed tag) := by
  refine reads_behind '$' (by decide)
    (reads_upTo (by simp [h]) (List.cons_ne_nil '$' (tag ++ ['$']))
      (fun text => some (.str (String.ofList text))) (by simp))
    (reads_const none (by simp)) (fun more => rfl) (fun more => rfl)
    (fun cs h => ?_) fun cs h => ?_
  all_goals
    cases cs with
    | nil => rfl
    | cons c rest =>
      have hc : c ≠ '$' := by simpa using h
      simp [bodyOf, bodyUnclosed, hc]

/-- A dollar sign begins a body between two tags, or is nothing. -/
theorem reads_dollar : Reads (next '$') (unclosed '$') := by
  let p := fun c : Char => isAlphanumeric c || c == '_'
  have hp : p ';' = false := by decide
  have hnone (cs : List Char) : ';' ∉ cs.takeWhile p := fun hmem =>
    Bool.false_ne_true (hp.symm.trans (List.mem_takeWhile_imp hmem))
  have hread (cs : List Char) : next '$' cs =
      ((bodyOf (cs.takeWhile p) (cs.drop (cs.takeWhile p).length)).1,
        (cs.takeWhile p).length +
          (bodyOf (cs.takeWhile p) (cs.drop (cs.takeWhile p).length)).2) := by
    have hblank : isBlank '$' = false := rfl
    cases hdrop : cs.drop (cs.takeWhile p).length with
    | nil => simp [next, hblank, dollarQuoted, bodyOf, hdrop, p]
    | cons d body =>
      by_cases hd : d = '$'
      · subst hd
        simp [next, hblank, dollarQuoted, bodyOf, hdrop, p]
        omega
      · simp [next, hblank, dollarQuoted, bodyOf, hdrop, p, hd]
  have hopen (cs : List Char) : unclosed '$' cs =
      bodyUnclosed (cs.takeWhile p) (cs.drop (cs.takeWhile p).length) := rfl
  -- a semicolon behind the text is no part of the tag: it stands behind what the tag leaves
  have hle (cs : List Char) : (cs.takeWhile p).length ≤ cs.length :=
    (List.takeWhile_sublist p).length_le
  have hdrop (cs more : List Char) : (cs ++ ';' :: more).drop (cs.takeWhile p).length =
      cs.drop (cs.takeWhile p).length ++ ';' :: more :=
    List.drop_append_of_le_length (hle cs)
  refine ⟨fun cs => ?_, fun cs => ?_, fun cs more h => ?_, fun cs more h => ?_⟩
  · have hbody := (reads_bodyOf (hnone cs)).le (cs.drop (cs.takeWhile p).length)
    rw [List.length_drop] at hbody
    rw [hread]
    have := hle cs
    dsimp only
    omega
  · rw [hread]
    exact (reads_bodyOf (hnone cs)).token _
  · rw [hread, hread, takeWhile_append hp, hdrop,
      (reads_bodyOf (hnone cs)).closed _ more (hopen cs ▸ h)]
  · have hbody := (reads_bodyOf (hnone cs)).opened _ more (hopen cs ▸ h)
    rw [List.length_drop] at hbody
    rw [hread, takeWhile_append hp, hdrop]
    dsimp only
    omega

/-- Characters with a reader of their own. -/
def marks : List Char :=
  ['-', '/', '#', ':', '(', ')', ',', ';', '.', '[', '\'', '$', '"', '`']

/-- A token of one character. -/
theorem reads_symbol {c : Char} {token : Token} (htoken : token ≠ .eof)
    (hnext : next c = fun _ => (some token, 0)) (hopen : unclosed c = fun _ => false) :
    Reads (next c) (unclosed c) := by
  rw [hnext, hopen]
  exact reads_const _ (by simpa using htoken)

/-- Each mark opens something that is closed or goes on to the end. -/
theorem reads_mark {c : Char} (h : c ∈ marks) : Reads (next c) (unclosed c) := by
  simp only [marks, List.mem_cons, List.not_mem_nil, or_false] at h
  rcases h with rfl | rfl | rfl | rfl | rfl | rfl | rfl | rfl | rfl | rfl | rfl | rfl | rfl | rfl
  · exact reads_dash
  · exact reads_slash
  · exact reads_lineComment
  · exact reads_colon
  · exact reads_symbol (by simp) rfl rfl
  · exact reads_symbol (by simp) rfl rfl
  · exact reads_symbol (by simp) rfl rfl
  · exact reads_symbol (by simp) rfl rfl
  · exact reads_symbol (by simp) rfl rfl
  · exact reads_bracket
  · exact reads_literal
  · exact reads_dollar
  · exact reads_quoted (by decide)
  · exact reads_quoted (by decide)

/-- Every other character begins a number or a word, is an operator or is nothing. -/
theorem next_eq {c : Char} (h : c ∉ marks) (hblank : isBlank c = false) : next c = fun rest =>
    if c.isDigit then
      (some (.num (String.ofList (number false (c :: rest)))),
        (number false (c :: rest)).length - 1)
    else if isAlphabetic c || c == '_' then
      (some (ofWord (String.ofList (c :: rest.takeWhile isWordChar))),
        (rest.takeWhile isWordChar).length)
    else if isOperator c then (some (.op c), 0)
    else (none, 0) := by
  simp only [marks, List.mem_cons, List.not_mem_nil, or_false, not_or] at h
  funext rest
  simp [next, hblank, h]

/-- A character that is no mark opens nothing. -/
theorem unclosed_eq {c : Char} (h : c ∉ marks) : unclosed c = fun _ => false := by
  simp only [marks, List.mem_cons, List.not_mem_nil, or_false, not_or] at h
  funext rest
  simp [unclosed, h]

/-- A word is not the end of the tokens. -/
theorem ofWord_ne_eof (word : String) : ofWord word ≠ .eof := by
  rw [ofWord]
  split
  · simp
  · split <;> simp

/-- What is read at a character, with a semicolon behind the text. -/
theorem reads_next (c : Char) : Reads (next c) (unclosed c) := by
  by_cases hmark : c ∈ marks
  · exact reads_mark hmark
  rw [unclosed_eq hmark]
  cases hblank : isBlank c with
  | true =>
    rw [funext (next_of_isBlank hblank)]
    exact reads_const none (by simp)
  | false =>
    rw [next_eq hmark hblank]
    -- what is no mark and no blank is a number, a word or a single character
    split
    · refine reads_run (fun cs => ?_) (fun cs => by simp) fun cs more => ?_
      · have := length_number_le false (c :: cs)
        simp only [List.length_cons] at this
        dsimp only
        omega
      · rw [← List.cons_append, number_append]
    split
    · refine reads_run (fun cs => ?_) (fun cs => ?_) fun cs more => ?_
      · exact (List.takeWhile_sublist _).length_le
      · simpa using ofWord_ne_eof _
      · rw [takeWhile_append (by decide)]
    split
    · exact reads_const _ (by simp)
    · exact reads_const _ (by simp)

end CrudGen.Sql.Lexer
