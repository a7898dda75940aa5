import CrudGen.Catalog.Build
import CrudGen.Proofs.Sql.Spans

/-!
# Joined scripts — what a semicolon separates

A script may end inside a literal, a quoted name, a body between dollar tags or a comment. If it
does not, a semicolon behind it ends it, and what follows is read as if it stood alone; if it does,
the semicolon is part of what is open.

Main results:

* `ends_not_mem_of_originsOf` — neither a semicolon nor an end of input stands in a statement.
* `tokenize_joined` — so the statements of scripts joined by semicolons are those of the scripts.
-/

namespace CrudGen.Sql

open Lexer

-- ---------------------------------------------------------------------------
-- A text and a semicolon
-- ---------------------------------------------------------------------------

/-- Whether a text ends inside a literal, a quoted or bracketed name, a body between dollar tags or a
comment. -/
def endsOpen : List Char → Bool
  | [] => false
  | c :: rest => unclosed c rest || endsOpen (rest.drop (next c rest).2)
termination_by cs => cs.length
decreasing_by
  simp only [List.length_drop, List.length_cons]
  omega

/-- A token that stands `n` bytes later. -/
def Located.later (n : Nat) (t : Located) : Located :=
  { t with start := n + t.start, stop := n + t.stop }

/-- Tokens stand where their text stands. -/
theorem Lexer.scan_later (n start : Nat) (cs : List Char) :
    scan (n + start) cs = (scan start cs).map (Located.later n) := by
  match cs with
  | [] => simp [scan, Located.later]
  | c :: rest =>
    have hmore := scan_later n (start + byteLength (c :: rest.take (next c rest).2))
      (rest.drop (next c rest).2)
    rw [scan_cons, scan_cons, Nat.add_assoc, List.map_append, List.map_map]
    dsimp only
    rw [hmore]
    rfl
termination_by cs.length
decreasing_by
  simp only [List.length_drop, List.length_cons]
  omega

/-- A character with the next ones, and what is left, are all bytes. -/
theorem Lexer.byteLength_piece (c : Char) (rest : List Char) (n : Nat) :
    byteLength (c :: rest.take n) + byteLength (rest.drop n) = byteLength (c :: rest) := by
  rw [← byteLength_append, List.cons_append, List.take_append_drop]

/-- There is always a token. -/
theorem Lexer.scan_ne_nil (start : Nat) (cs : List Char) : scan start cs ≠ [] := by
  obtain ⟨inner, htokens, -⟩ := (scanned start cs).ends
  simp [htokens]

/-- A semicolon behind a text that ends closed is read as one, and what follows it is read as if it
stood alone. -/
theorem Lexer.scan_closed (start : Nat) {cs : List Char} (more : List Char)
    (h : endsOpen cs = false) :
    scan start (cs ++ ';' :: more) = (scan start cs).dropLast ++
      ⟨.semicolon, start + byteLength cs, start + byteLength cs + 1⟩ ::
        scan (start + byteLength cs + 1) more := by
  -- token by token: the reader of each stops at the semicolon if nothing is left open
  match cs with
  | [] =>
    have hnext : next ';' more = (some .semicolon, 0) := rfl
    have hsize : ';'.utf8Size = 1 := rfl
    rw [List.nil_append, scan_cons, hnext, scan]
    simp [byteLength, hsize]
  | c :: rest =>
    rw [endsOpen, Bool.or_eq_false_iff] at h
    have hle := (reads_next c).le rest
    have hmore := scan_closed (start + byteLength (c :: rest.take (next c rest).2)) more h.2
    have hlength := byteLength_piece c rest (next c rest).2
    rw [List.cons_append, scan_cons, scan_cons, (reads_next c).closed rest more h.1,
      List.take_append_of_le_length hle, List.drop_append_of_le_length hle]
    dsimp only
    rw [hmore, Nat.add_assoc start, hlength, List.dropLast_append_of_ne_nil (scan_ne_nil _ _),
      List.append_assoc]
termination_by cs.length
decreasing_by
  simp only [List.length_drop, List.length_cons]
  omega

/-- A semicolon behind a text that ends open is inside a piece, where no token starts. -/
theorem Lexer.scan_open (start : Nat) {cs : List Char} (more : List Char)
    (h : endsOpen cs = true) {t : Located} (ht : t ∈ scan start (cs ++ ';' :: more)) :
    t.start ≠ start + byteLength cs := by
  match cs with
  | [] =>
    rw [endsOpen] at h
    cases h
  | c :: rest =>
    have hpos := byteLength_pos (List.cons_ne_nil c rest)
    rw [List.cons_append, scan_cons, List.mem_append] at ht
    obtain ht | ht := ht
    · obtain ⟨token, -, rfl⟩ := List.mem_map.1 ht
      exact Nat.ne_of_lt (Nat.lt_add_of_pos_right hpos)
    cases hopen : unclosed c rest with
    | true =>
      -- the first piece goes on beyond the semicolon
      have hlt := (reads_next c).opened rest more hopen
      obtain ⟨before, _, _, _, hstart, _⟩ := (scanned _ _).slice ht
      rw [List.take_append, List.take_of_length_le (Nat.le_of_lt hlt), ← List.cons_append,
        byteLength_append] at hstart
      have hover : (';' :: more).take ((next c (rest ++ ';' :: more)).2 - rest.length) ≠ [] := by
        rw [Ne, List.take_eq_nil_iff, not_or]
        exact ⟨by omega, List.cons_ne_nil _ _⟩
      have := byteLength_pos hover
      omega
    | false =>
      rw [endsOpen, hopen, Bool.false_or] at h
      have hle := (reads_next c).le rest
      have hlength := byteLength_piece c rest (next c rest).2
      rw [(reads_next c).closed rest more hopen, List.take_append_of_le_length hle,
        List.drop_append_of_le_length hle] at ht
      rw [← hlength, ← Nat.add_assoc]
      exact scan_open _ more h ht
termination_by cs.length
decreasing_by
  simp only [List.length_drop, List.length_cons]
  omega

/-- A word is no semicolon. -/
theorem Lexer.ofWord_ne_semicolon (word : String) : ofWord word ≠ .semicolon := by
  rw [ofWord]
  split
  · simp
  · split <;> simp

/-- Only a semicolon is read as one. -/
theorem Lexer.eq_semicolon_of_next {c : Char} {rest : List Char}
    (h : (next c rest).1 = some .semicolon) : c = ';' := by
  unfold next at h
  repeat' split at h
  all_goals simp_all [ofWord_ne_semicolon]

/-- A token for a semicolon stands at a semicolon of the text. -/
theorem Lexer.scan_semicolon (start : Nat) (cs : List Char) {t : Located}
    (ht : t ∈ scan start cs) (hsemicolon : t.token = .semicolon) :
    ∃ before after, cs = before ++ ';' :: after ∧ t.start = start + byteLength before := by
  match cs with
  | [] =>
    rw [scan, List.mem_singleton] at ht
    rw [ht] at hsemicolon
    cases hsemicolon
  | c :: rest =>
    rw [scan_cons, List.mem_append] at ht
    obtain ht | ht := ht
    · obtain ⟨token, htoken, rfl⟩ := List.mem_map.1 ht
      rw [Option.mem_toList] at htoken
      obtain rfl : token = .semicolon := hsemicolon
      exact ⟨[], rest, by rw [eq_semicolon_of_next htoken, List.nil_append], rfl⟩
    · obtain ⟨before, after, hcs, hstart⟩ := scan_semicolon _ _ ht hsemicolon
      refine ⟨c :: rest.take (next c rest).2 ++ before, after, ?_, ?_⟩
      · rw [List.append_assoc, ← hcs, List.cons_append, List.take_append_drop]
      · rw [hstart, byteLength_append, Nat.add_assoc]
termination_by cs.length
decreasing_by
  simp only [List.length_drop, List.length_cons]
  omega

-- ---------------------------------------------------------------------------
-- Statements
-- ---------------------------------------------------------------------------

/-- A token that ends a statement separates the runs before it from those after it. -/
theorem runs_append (before : List Located) {t : Located} (ht : t.token.endsStatement = true)
    (after : List Located) : runs (before ++ t :: after) = runs before ++ runs after := by
  induction before with
  | nil => simp [runs, ht]
  | cons u rest ih =>
    obtain ⟨run, more, hruns, -, -⟩ := runs_eq_cons rest
    rw [List.cons_append, runs, runs, ih, hruns]
    split <;> rfl

/-- Runs later in a script are the same runs. -/
theorem runs_later (n : Nat) (tokens : List Located) :
    runs (tokens.map (Located.later n)) = (runs tokens).map (List.map (Located.later n)) := by
  induction tokens with
  | nil => rfl
  | cons t rest ih =>
    obtain ⟨run, more, hruns, -, -⟩ := runs_eq_cons rest
    have htoken : (Located.later n t).token = t.token := rfl
    rw [List.map_cons, runs, runs, ih, hruns, htoken]
    split <;> rfl

/-- The statements of a text that ends in one end of input. -/
theorem statements_ended {inner : List Located} {n : Nat} :
    statements (inner ++ [⟨.eof, n, n⟩]) = (runs inner).filter fun run => !run.isEmpty := by
  have heof : Token.endsStatement .eof = true := rfl
  rw [statements, runs_append inner heof, List.filter_append]
  exact List.append_nil _

/-- Statements later in a script are the same statements. -/
theorem statements_later (n : Nat) (tokens : List Located) :
    statements (tokens.map (Located.later n)) =
      (statements tokens).map (List.map (Located.later n)) := by
  rw [statements, statements, runs_later, List.filter_map]
  congr 1
  exact List.filter_congr fun run _ => by simp

/-- The line that a slice of a script is shown by. -/
def shown (source : List Char) : String :=
  let text := [' '].intercalate (Text.wordsOf source)
  if text.length > excerptLength then String.ofList (text.take excerptLength) ++ "..."
  else String.ofList text

/-- An excerpt is cut from the first token of a run to its last. -/
theorem excerpt_eq {cs source : List Char} {run : List Located} {first last : Located}
    (hfirst : run.head? = some first) (hlast : run.getLast? = some last)
    (h : Slice cs first.start last.stop source) : excerpt cs run = shown source := by
  obtain ⟨rest, rfl⟩ := List.head?_eq_some_iff.1 hfirst
  simp only [excerpt, hlast, h.cut, shown]

/-- A statement is shown by the same line if its text stands in a longer script. -/
theorem excerpt_later {script : String} {run : List Located}
    (h : run ∈ statements (tokenize script)) (before after : List Char) :
    excerpt (before ++ script.toList ++ after) (run.map (Located.later (byteLength before))) =
      excerpt script.toList run := by
  obtain ⟨first, last, source, hfirst, hlast, -, hsource⟩ := slice_of_statement h
  rw [excerpt_eq hfirst hlast hsource]
  obtain ⟨front, back, hscript, hstart, hstop⟩ := hsource
  have hslice : Slice (before ++ script.toList ++ after) (first.later (byteLength before)).start
      (last.later (byteLength before)).stop source := by
    refine ⟨before ++ front, back ++ after, by simp [hscript], ?_, ?_⟩
    · simp [Located.later, hstart]
    · rw [List.append_assoc, byteLength_append, hstop]
      rfl
  exact excerpt_eq (by simp [hfirst]) (by simp [hlast]) hslice

/-- The statements of a script, each the line it is shown by and its tokens. -/
def statementsOf (script : String) : List (String × List Token) :=
  (statements (tokenize script)).map fun run =>
    (excerpt script.toList run, run.map (·.token))

/-- The statements of a script are numbered. -/
theorem originsOf_eq (script : String) : originsOf script = numbered (statementsOf script) :=
  rfl

/-- **No end inside.** The tokens of a statement that is parsed hold neither a semicolon nor the end
of input. The parser sees the latter past its tokens only. -/
theorem ends_not_mem_of_originsOf {script : String} {o : Origin} {ts : List Token}
    (h : (o, ts) ∈ originsOf script) : Token.semicolon ∉ ts ∧ Token.eof ∉ ts := by
  have hinner : ∀ t ∈ ts, t.endsStatement = false := by
    obtain ⟨i, hi, hentry⟩ := List.mem_mapIdx.1 h
    obtain ⟨run, hrun, hstatement⟩ := List.mem_map.1 (List.getElem_mem hi)
    have hts : run.map (·.token) = ts := by
      rw [← hstatement] at hentry
      exact congrArg Prod.snd hentry
    rw [← hts, List.forall_mem_map]
    exact fun _ => endsStatement_of_mem_runs (List.mem_filter.1 hrun).1
  exact ⟨fun hmem => Bool.noConfusion (hinner .semicolon hmem),
    fun hmem => Bool.noConfusion (hinner .eof hmem)⟩

/-- A script that is closed goes on behind a semicolon as another script. -/
theorem tokenize_closed (a b : String) (h : endsOpen a.toList = false) :
    tokenize (a ++ ";" ++ b) = (tokenize a).dropLast ++
      ⟨.semicolon, a.utf8ByteSize, a.utf8ByteSize + 1⟩ ::
        (tokenize b).map (Located.later (a.utf8ByteSize + 1)) := by
  have hscript : (a ++ ";" ++ b).toList = a.toList ++ ';' :: b.toList := by simp
  rw [tokenize, hscript, scan_closed 0 _ h, Nat.zero_add, byteLength_toList,
    ← Nat.add_zero (a.utf8ByteSize + 1), scan_later]
  rfl

/-- The statements of a script that ends closed and of what follows a semicolon. -/
theorem statementsOf_closed (a b : String) (h : endsOpen a.toList = false) :
    statementsOf (a ++ ";" ++ b) = statementsOf a ++ statementsOf b := by
  obtain ⟨inner, hinner, -⟩ := (scanned 0 a.toList).ends
  have htokens := tokenize_closed a b h
  have hscript : (a ++ ";" ++ b).toList = a.toList ++ ';' :: b.toList := by simp
  have hstatements : statements (tokenize (a ++ ";" ++ b)) = statements (tokenize a) ++
      (statements (tokenize b)).map (List.map (Located.later (a.utf8ByteSize + 1))) := by
    rw [htokens, ← statements_later, tokenize, hinner, List.dropLast_concat, statements_ended,
      statements, statements, runs_append _ rfl, List.filter_append]
  rw [statementsOf, statementsOf, statementsOf, hstatements, List.map_append, List.map_map]
  refine congrArg₂ (· ++ ·) ?_ ?_
  -- excerpts of the first part see the same text, with more behind it
  · refine List.map_congr_left fun run hrun => ?_
    have hwhole := excerpt_later hrun [] (';' :: b.toList)
    have hsame : Located.later 0 = id := funext fun t => by simp [Located.later]
    rw [List.nil_append, byteLength, hsame, List.map_id] at hwhole
    rw [hscript, hwhole]
  -- those of the second part see it later, by the first and the semicolon
  · refine List.map_congr_left fun run hrun => ?_
    have hwhole := excerpt_later hrun (a.toList ++ [';']) []
    have hlength : byteLength (a.toList ++ [';']) = a.utf8ByteSize + 1 := by
      rw [byteLength_append, byteLength_toList]
      rfl
    rw [List.append_nil, List.append_assoc, List.singleton_append, hlength] at hwhole
    rw [Function.comp_apply, hscript, hwhole, List.map_map]
    rfl

/-- Scripts that are closed may be joined by semicolons. -/
theorem statementsOf_intercalate (parts : List String)
    (h : ∀ part ∈ parts, endsOpen part.toList = false) :
    statementsOf (";".intercalate parts) = parts.flatMap statementsOf := by
  induction parts with
  | nil =>
    rw [String.intercalate_nil, List.flatMap_nil, statementsOf, tokenize, String.toList_empty,
      scan]
    rfl
  | cons part rest ih =>
    have hpart := h part (List.mem_cons_self ..)
    have hrest := ih fun p hp => h p (List.mem_cons_of_mem part hp)
    cases rest with
    | nil => simp
    | cons next more =>
      rw [String.intercalate_cons_cons, statementsOf_closed _ _ hpart, hrest]
      rfl

/-- A semicolon behind a text that ends closed separates it from what follows, whose tokens stand
where they would alone, only later. A semicolon inside a literal, a quoted or bracketed name, a body
between dollar tags or a comment starts no token, so every token for a semicolon stands behind a text
that ends closed. The statements of scripts that end closed, joined by semicolons, are therefore the
statements of the scripts. -/
theorem tokenize_joined :
    (∀ a b : String, endsOpen a.toList = false →
      tokenize (a ++ ";" ++ b) = (tokenize a).dropLast ++
        ⟨.semicolon, a.utf8ByteSize, a.utf8ByteSize + 1⟩ ::
          (tokenize b).map (Located.later (a.utf8ByteSize + 1))) ∧
    (∀ a b : String, endsOpen a.toList = true →
      ∀ t ∈ tokenize (a ++ ";" ++ b), t.start ≠ a.utf8ByteSize) ∧
    (∀ script : String, ∀ t ∈ tokenize script, t.token = .semicolon → ∃ a b : String,
      script = a ++ ";" ++ b ∧ t.start = a.utf8ByteSize ∧ endsOpen a.toList = false) ∧
    ∀ parts : List String, (∀ part ∈ parts, endsOpen part.toList = false) →
      originsOf (";".intercalate parts) = numbered (parts.flatMap statementsOf) := by
  -- inside an open literal, comment or name the semicolon starts no token
  have hopen (a b : String) (h : endsOpen a.toList = true) :
      ∀ t ∈ tokenize (a ++ ";" ++ b), t.start ≠ a.utf8ByteSize := by
    intro t ht
    have hscript : (a ++ ";" ++ b).toList = a.toList ++ ';' :: b.toList := by simp
    rw [tokenize, hscript] at ht
    rw [← byteLength_toList, ← Nat.zero_add (byteLength a.toList)]
    exact scan_open 0 b.toList h ht
  refine ⟨tokenize_closed, hopen, fun script t ht hsemicolon => ?_, fun parts h => ?_⟩
  -- a semicolon that is a token splits the script, and what is before it is closed
  · obtain ⟨before, after, hscript, hstart⟩ := scan_semicolon 0 script.toList ht hsemicolon
    have hsplit : script = String.ofList before ++ ";" ++ String.ofList after := by
      rw [← String.toList_inj, hscript]
      simp
    have hat : t.start = (String.ofList before).utf8ByteSize := by
      rw [hstart, Nat.zero_add, ← byteLength_toList, String.toList_ofList]
    refine ⟨String.ofList before, String.ofList after, hsplit, hat, ?_⟩
    rw [hsplit] at ht
    exact Bool.eq_false_iff.2 fun h => hopen _ _ h t ht hat
  · exact congrArg numbered (statementsOf_intercalate parts h)

/-- A semicolon in a literal does not separate statements, one behind it does. -/
theorem tokenize_joined_literal :
    (endsOpen "a ';'".toList = false ∧
      tokenize ("a ';'" ++ ";" ++ "b") = (tokenize "a ';'").dropLast ++
        ⟨.semicolon, 5, 6⟩ :: (tokenize "b").map (Located.later 6)) ∧
    (endsOpen "a '".toList = true ∧ ∀ t ∈ tokenize ("a '" ++ ";" ++ "';b"), t.start ≠ 3) ∧
    (⟨.semicolon, 5, 6⟩ ∈ tokenize ("a ';'" ++ ";" ++ "b") ∧ ∃ a b : String,
      "a ';'" ++ ";" ++ "b" = a ++ ";" ++ b ∧ 5 = a.utf8ByteSize ∧ endsOpen a.toList = false) ∧
    (∀ part ∈ ["a ';'", "b"], endsOpen part.toList = false) ∧
    originsOf (";".intercalate ["a ';'", "b"]) = numbered (["a ';'", "b"].flatMap statementsOf) := by
  have hclosed : endsOpen "a ';'".toList = false := by decide +kernel
  have hopen : endsOpen "a '".toList = true := by decide +kernel
  have hmem : ⟨.semicolon, 5, 6⟩ ∈ tokenize ("a ';'" ++ ";" ++ "b") := by
    rw [tokenize_closed _ _ hclosed]
    exact List.mem_append_right _ (List.mem_cons_self ..)
  have hparts : ∀ part ∈ ["a ';'", "b"], endsOpen part.toList = false := by
    intro part hpart
    simp only [List.mem_cons, List.not_mem_nil, or_false] at hpart
    obtain rfl | rfl := hpart
    · exact hclosed
    · decide +kernel
  exact ⟨⟨hclosed, tokenize_joined.1 "a ';'" "b" hclosed⟩,
    ⟨hopen, tokenize_joined.2.1 "a '" "';b" hopen⟩,
    ⟨hmem, tokenize_joined.2.2.1 _ _ hmem rfl⟩, hparts, tokenize_joined.2.2.2 _ hparts⟩

end CrudGen.Sql
