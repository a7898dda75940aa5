import CrudGen.Proofs.Sql.Lexemes
import CrudGen.Sql.Lexer

/-!
# Spans — where the tokens of a script stand

`Scanned` says how a text is read: piece by piece, every piece with at least one character and at
most one token. What is known of the spans follows from it, whatever the readers of the pieces are.

Main result:

* `tokenize_spans` — a script has one end of input, at its end; the other tokens are made of
  characters of the script, one after another; and the source of every statement is there.
-/

namespace CrudGen.Sql

open Lexer

-- ---------------------------------------------------------------------------
-- Offsets
-- ---------------------------------------------------------------------------

@[simp]
theorem Lexer.byteLength_append (before after : List Char) :
    byteLength (before ++ after) = byteLength before + byteLength after := by
  induction before with
  | nil => simp [byteLength]
  | cons c rest ih => simp [byteLength, ih, Nat.add_assoc]

theorem Lexer.byteLength_pos {cs : List Char} (h : cs ≠ []) : 0 < byteLength cs := by
  cases cs with
  | nil => exact absurd rfl h
  | cons c rest => exact Nat.add_pos_left c.utf8Size_pos _

/-- The offsets are those of the UTF-8 text. -/
theorem Lexer.byteLength_toList (s : String) : byteLength s.toList = s.utf8ByteSize := by
  have hencoded (cs : List Char) : cs.utf8Encode.size = byteLength cs := by
    induction cs with
    | nil => rfl
    | cons c rest ih =>
      rw [List.utf8Encode_cons, ByteArray.size_append, ih, byteLength,
        List.utf8Encode_singleton, List.size_toByteArray, String.length_utf8EncodeChar]
  rw [← hencoded, String.utf8Encode_toList, String.utf8ByteSize]

/-- The characters of a text from one offset to another. Both are character boundaries. -/
def Slice (cs : List Char) (start stop : Nat) (source : List Char) : Prop :=
  ∃ before after, cs = before ++ source ++ after ∧ byteLength before = start ∧
    byteLength (before ++ source) = stop

theorem fromByte_append (before after : List Char) :
    fromByte (byteLength before) (before ++ after) = after := by
  induction before with
  | nil => cases after <;> rfl
  | cons c rest ih =>
    have hpos := c.utf8Size_pos
    have hleft : byteLength (c :: rest) - c.utf8Size = byteLength rest := by
      simp [byteLength]
    obtain ⟨n, hn⟩ := Nat.exists_eq_succ_of_ne_zero
      (Nat.ne_of_gt (byteLength_pos (List.cons_ne_nil c rest)))
    rw [hn] at hleft ⊢
    rw [List.cons_append, fromByte.eq_3 _ _ _ (Nat.succ_ne_zero n), hleft, ih]

theorem beforeByte_append (before after : List Char) :
    beforeByte (byteLength before) (before ++ after) = before := by
  induction before with
  | nil => cases after <;> rfl
  | cons c rest ih =>
    have hleft : byteLength (c :: rest) - c.utf8Size = byteLength rest := by
      simp [byteLength]
    obtain ⟨n, hn⟩ := Nat.exists_eq_succ_of_ne_zero
      (Nat.ne_of_gt (byteLength_pos (List.cons_ne_nil c rest)))
    rw [hn] at hleft ⊢
    rw [List.cons_append, beforeByte.eq_3 _ _ _ (Nat.succ_ne_zero n), hleft, ih]

/-- A slice is what is cut out between its two offsets. -/
theorem Slice.cut {cs source : List Char} {start stop : Nat} (h : Slice cs start stop source) :
    beforeByte (stop - start) (fromByte start cs) = source := by
  obtain ⟨before, after, rfl, rfl, rfl⟩ := h
  rw [List.append_assoc, fromByte_append, byteLength_append, Nat.add_sub_cancel_left,
    beforeByte_append]

/-- From the beginning of one slice to the end of a later one. -/
theorem Slice.join {cs source source' : List Char} {start stop start' stop' : Nat}
    (h : Slice cs start stop source) (h' : Slice cs start' stop' source') (hlt : start < stop') :
    ∃ whole, whole ≠ [] ∧ Slice cs start stop' whole := by
  obtain ⟨before, after, rfl, rfl, rfl⟩ := h
  obtain ⟨before', after', hcs, rfl, rfl⟩ := h'
  rw [List.append_assoc] at hcs
  obtain ⟨whole, hwhole, hrest⟩ | ⟨excess, hexcess, -⟩ := List.append_eq_append_iff.1 hcs
  · refine ⟨whole, ?_, before, after', ?_, rfl, by rw [hwhole]⟩
    · rintro rfl
      rw [hwhole, List.append_nil] at hlt
      exact Nat.lt_irrefl _ hlt
    · rw [List.append_assoc, List.append_assoc, hrest]
  · rw [hexcess, byteLength_append] at hlt
    omega

-- ---------------------------------------------------------------------------
-- Piece by piece
-- ---------------------------------------------------------------------------

/-- The tokens of the characters that follow the offset `start`. A piece of the text gives one token
or none. -/
inductive Scanned : Nat → List Char → List Located → Prop where
  | eof (start : Nat) : Scanned start [] [⟨.eof, start, start⟩]
  | skip {start : Nat} {piece rest : List Char} {tokens : List Located} (some : piece ≠ [])
      (more : Scanned (start + byteLength piece) rest tokens) : Scanned start (piece ++ rest) tokens
  | token {start : Nat} {piece rest : List Char} {t : Token} {tokens : List Located}
      (some : piece ≠ []) (inner : t ≠ .eof)
      (more : Scanned (start + byteLength piece) rest tokens) :
      Scanned start (piece ++ rest) (⟨t, start, start + byteLength piece⟩ :: tokens)

/-- The tokens of a text are the token of its first piece, if there is one, and those of the rest. -/
theorem Lexer.scan_cons (start : Nat) (c : Char) (rest : List Char) :
    scan start (c :: rest) =
      let stop := start + byteLength (c :: rest.take (next c rest).2)
      (next c rest).1.toList.map (fun t => (⟨t, start, stop⟩ : Located)) ++
        scan stop (rest.drop (next c rest).2) := by
  rw [scan]
  obtain ⟨token, n⟩ := next c rest
  cases token <;> rfl

theorem scanned (start : Nat) (cs : List Char) : Scanned start cs (scan start cs) := by
  match cs with
  | [] =>
    rw [scan]
    exact .eof start
  | c :: rest =>
    have hpiece : c :: rest.take (next c rest).2 ≠ [] := List.cons_ne_nil _ _
    have hmore := scanned (start + byteLength (c :: rest.take (next c rest).2))
      (rest.drop (next c rest).2)
    have htoken := (reads_next c).token rest
    rw [scan_cons]
    have hsplit : c :: rest =
        (c :: rest.take (next c rest).2) ++ rest.drop (next c rest).2 := by simp
    rw [hsplit]
    -- a piece that is no token is a blank or a comment
    cases hnext : (next c rest).1 with
    | none => exact .skip hpiece hmore
    | some t =>
      refine .token hpiece ?_ hmore
      rintro rfl
      exact htoken hnext
termination_by cs.length
decreasing_by
  simp only [List.length_drop, List.length_cons]
  omega

section

variable {start : Nat} {cs : List Char} {tokens : List Located}

/-- There is one end of input, behind everything else. -/
theorem Scanned.ends (h : Scanned start cs tokens) : ∃ inner,
    tokens = inner ++ [⟨Token.eof, start + byteLength cs, start + byteLength cs⟩] ∧
      ∀ t ∈ inner, t.token ≠ Token.eof := by
  induction h with
  | eof start => exact ⟨[], rfl, by simp⟩
  | skip _ _ ih =>
    obtain ⟨inner, rfl, hinner⟩ := ih
    exact ⟨inner, by simp [Nat.add_assoc], hinner⟩
  | @token start piece rest t _ _ ht _ ih =>
    obtain ⟨inner, rfl, hinner⟩ := ih
    refine ⟨⟨t, start, start + byteLength piece⟩ :: inner, by simp [Nat.add_assoc], ?_⟩
    simpa using ⟨ht, hinner⟩

theorem Scanned.length_le (h : Scanned start cs tokens) : tokens.length ≤ cs.length + 1 := by
  induction h with
  | eof => exact Nat.le_refl _
  | skip _ _ ih =>
    rw [List.length_append]
    omega
  | token hpiece _ _ ih =>
    have := List.length_pos_iff.2 hpiece
    rw [List.length_append, List.length_cons]
    omega

/-- A token is made of a slice of the text, which only the end of input leaves empty. -/
theorem Scanned.slice (h : Scanned start cs tokens) {t : Located} (ht : t ∈ tokens) :
    ∃ before source after, cs = before ++ source ++ after ∧
      t.start = start + byteLength before ∧ t.stop = start + byteLength (before ++ source) ∧
        (t.token ≠ .eof → source ≠ []) := by
  induction h with
  | eof start =>
    rw [List.mem_singleton] at ht
    subst ht
    exact ⟨[], [], [], rfl, rfl, rfl, fun h => absurd rfl h⟩
  -- what comes before shifts the slices behind it by its length
  | @skip start piece rest _ _ _ ih =>
    obtain ⟨before, source, after, rfl, hstart, hstop, hsource⟩ := ih ht
    refine ⟨piece ++ before, source, after, by simp, ?_, ?_, hsource⟩
    · simp [hstart, Nat.add_assoc]
    · simp [hstop, Nat.add_assoc]
  | @token start piece rest _ _ hpiece _ _ ih =>
    obtain rfl | ht := List.mem_cons.1 ht
    · exact ⟨[], piece, rest, rfl, rfl, rfl, fun _ => hpiece⟩
    obtain ⟨before, source, after, rfl, hstart, hstop, hsource⟩ := ih ht
    refine ⟨piece ++ before, source, after, by simp, ?_, ?_, hsource⟩
    · simp [hstart, Nat.add_assoc]
    · simp [hstop, Nat.add_assoc]

/-- Every token starts where the one before it has ended, or later. -/
theorem Scanned.ascending (h : Scanned start cs tokens) :
    tokens.Pairwise fun t u => t.stop ≤ u.start := by
  induction h with
  | eof => exact List.pairwise_singleton _ _
  | skip _ _ ih => exact ih
  | token _ _ more ih =>
    refine List.pairwise_cons.2 ⟨fun u hu => ?_, ih⟩
    obtain ⟨_, _, _, _, hstart, _⟩ := more.slice hu
    rw [hstart]
    exact Nat.le_add_right _ _

end

-- ---------------------------------------------------------------------------
-- Statements
-- ---------------------------------------------------------------------------

/-- The first run stands at the beginning of the tokens, the others among them. -/
theorem runs_eq_cons (tokens : List Located) : ∃ run more, runs tokens = run :: more ∧
    run <+: tokens ∧ ∀ r ∈ more, r <:+: tokens := by
  induction tokens with
  | nil => exact ⟨[], [], rfl, List.nil_prefix, by simp⟩
  | cons t rest ih =>
    obtain ⟨run, more, hruns, hrun, hmore⟩ := ih
    rw [runs]
    split
    · refine ⟨[], runs rest, rfl, List.nil_prefix, fun r hr => ?_⟩
      rw [hruns, List.mem_cons] at hr
      obtain rfl | hr := hr
      · exact hrun.isInfix.trans (List.infix_cons List.infix_rfl)
      · exact List.infix_cons (hmore r hr)
    · rw [hruns]
      exact ⟨t :: run, more, rfl, (List.prefix_cons_inj t).2 hrun,
        fun r hr => List.infix_cons (hmore r hr)⟩

theorem infix_of_mem_runs {tokens run : List Located} (h : run ∈ runs tokens) :
    run <:+: tokens := by
  obtain ⟨first, more, hruns, hfirst, hmore⟩ := runs_eq_cons tokens
  rw [hruns, List.mem_cons] at h
  obtain rfl | h := h
  · exact hfirst.isInfix
  · exact hmore run h

/-- No token of a run ends a statement. -/
theorem endsStatement_of_mem_runs {tokens run : List Located} (h : run ∈ runs tokens) {t : Located}
    (ht : t ∈ run) : t.token.endsStatement = false := by
  induction tokens generalizing run with
  | nil =>
    rw [runs, List.mem_singleton] at h
    subst h
    cases ht
  | cons u rest ih =>
    obtain ⟨first, more, hruns, -, -⟩ := runs_eq_cons rest
    rw [runs] at h
    -- a semicolon begins a run of its own; any other token joins the first
    split at h
    · obtain rfl | h := List.mem_cons.1 h
      · cases ht
      · exact ih h ht
    · rename_i hu
      rw [hruns] at h ih
      obtain rfl | h := List.mem_cons.1 h
      · obtain rfl | ht := List.mem_cons.1 ht
        · simpa using hu
        · exact ih (List.mem_cons_self ..) ht
      · exact ih (List.mem_cons_of_mem first h) ht

/-- A statement has a first and a last token. -/
theorem statement_ends {tokens run : List Located} (h : run ∈ statements tokens) :
    ∃ first last, run.head? = some first ∧ run.getLast? = some last ∧ first ∈ run ∧ last ∈ run ∧
      (first = last ∨ List.Sublist [first, last] run) := by
  rw [statements, List.mem_filter] at h
  cases run with
  | nil => cases h.2
  | cons first rest =>
    obtain rfl | ⟨inner, last, rfl⟩ := rest.eq_nil_or_concat
    · exact ⟨first, first, rfl, rfl, by simp, by simp, .inl rfl⟩
    · rw [List.concat_eq_append]
      refine ⟨first, last, rfl, by simp [List.getLast?_cons], by simp, by simp, .inr ?_⟩
      exact List.Sublist.cons_cons first (List.sublist_append_right inner [last])

/-- The end of input is the only token that is made of no character. -/
theorem slice_of_mem {script : String} {t : Located} (ht : t ∈ tokenize script) :
    ∃ source, Slice script.toList t.start t.stop source ∧ (t.token ≠ .eof → t.start < t.stop) := by
  obtain ⟨before, source, after, hcs, hstart, hstop, hsource⟩ :=
    (scanned 0 script.toList).slice ht
  rw [Nat.zero_add] at hstart hstop
  refine ⟨source, ⟨before, after, hcs, hstart.symm, hstop.symm⟩, fun heof => ?_⟩
  rw [hstart, hstop, byteLength_append]
  exact Nat.lt_add_of_pos_right (byteLength_pos (hsource heof))

/-- A statement is read from a slice of the script that is not empty. -/
theorem slice_of_statement {script : String} {run : List Located}
    (h : run ∈ statements (tokenize script)) : ∃ first last source,
      run.head? = some first ∧ run.getLast? = some last ∧ source ≠ [] ∧
        Slice script.toList first.start last.stop source := by
  have hmem := (List.mem_filter.1 h).1
  have hin (t : Located) (ht : t ∈ run) : t ∈ tokenize script :=
    (infix_of_mem_runs hmem).subset ht
  -- no token of a statement is the end of the script, and only that one is empty
  have hlt (t : Located) (ht : t ∈ run) : t.start < t.stop := by
    obtain ⟨_, _, hlt⟩ := slice_of_mem (hin t ht)
    refine hlt fun heof => ?_
    have := endsStatement_of_mem_runs hmem ht
    rw [heof] at this
    cases this
  obtain ⟨first, last, hfirst, hlast, hfirstMem, hlastMem, horder⟩ := statement_ends h
  -- the first token begins before the last one ends, also where they are the same
  have hspan : first.start < last.stop := by
    obtain rfl | hsub := horder
    · exact hlt first hfirstMem
    · have hpair := (scanned 0 script.toList).ascending.sublist
        (hsub.trans (infix_of_mem_runs hmem).sublist)
      have := List.rel_of_pairwise_cons hpair (List.mem_singleton_self last)
      have := hlt first hfirstMem
      have := hlt last hlastMem
      omega
  obtain ⟨_, hfirstSlice, -⟩ := slice_of_mem (hin first hfirstMem)
  obtain ⟨_, hlastSlice, -⟩ := slice_of_mem (hin last hlastMem)
  obtain ⟨source, hne, hsource⟩ := hfirstSlice.join hlastSlice hspan
  exact ⟨first, last, source, hfirst, hlast, hne, hsource⟩

/-- A script ends in one end of input, at its length. Every other token is a slice of the script of
at least one character, and starts where the one before it has ended, or later; so there are no more
of them than characters. The slice that a statement is shown by is there, and is not empty. -/
theorem tokenize_spans (script : String) : ∃ inner,
    tokenize script = inner ++ [⟨.eof, script.utf8ByteSize, script.utf8ByteSize⟩] ∧
    (∀ t ∈ inner, t.token ≠ .eof ∧ t.start < t.stop ∧
      ∃ source, Slice script.toList t.start t.stop source) ∧
    (tokenize script).Pairwise (fun t u => t.stop ≤ u.start) ∧
    (tokenize script).length ≤ script.length + 1 ∧
    ∀ run ∈ statements (tokenize script), ∃ first last source,
      run.head? = some first ∧ run.getLast? = some last ∧ source ≠ [] ∧
        Slice script.toList first.start last.stop source ∧
        beforeByte (last.stop - first.start) (fromByte first.start script.toList) = source := by
  have h := scanned 0 script.toList
  obtain ⟨inner, htokens, hinner⟩ := h.ends
  refine ⟨inner, ?_, fun t ht => ?_, h.ascending, h.length_le, fun run hrun => ?_⟩
  · rw [tokenize, htokens, Nat.zero_add, byteLength_toList]
  · have hmem : t ∈ tokenize script := by simp [tokenize, htokens, ht]
    obtain ⟨source, hsource, hlt⟩ := slice_of_mem hmem
    exact ⟨hinner t ht, hlt (hinner t ht), source, hsource⟩
  · obtain ⟨first, last, source, hfirst, hlast, hne, hsource⟩ := slice_of_statement hrun
    exact ⟨first, last, source, hfirst, hlast, hne, hsource, hsource.cut⟩

end CrudGen.Sql
