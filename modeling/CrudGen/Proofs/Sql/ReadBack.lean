import CrudGen.Proofs.Sql.Rendered

/-!
# Default expressions — read back

A default is kept as a text that is rendered from its tokens. A token that is not plain is not read
back: a literal loses a backslash, a name its quotes, and a number takes the dot behind it. So plain
tokens that do not run into each other are all that can be read back.

Main result:

* `defaultExpression_readBack` — the initial parts of a default are all read back just when there
  is no such token and no such number.
-/

namespace CrudGen.Sql

open Lexer Text

namespace Parser

-- ---------------------------------------------------------------------------
-- What is not read back
-- ---------------------------------------------------------------------------

/-- Doubling quotation marks adds no backslash. -/
theorem count_doubled (cs : List Char) :
    (doubled '\'' cs).count '\\' = cs.count '\\' := by
  induction cs with
  | nil => rfl
  | cons c cs ih =>
    rw [doubled]
    split
    · rename_i hc
      subst hc
      simpa using ih
    · simp [List.count_cons, ih]

/-- No character but a backslash stands for a backslash when it is escaped. -/
theorem eq_of_unescaped {c : Char} (h : unescaped c = '\\') : c = '\\' := by
  unfold unescaped at h
  split at h
  · cases h
  · cases h
  · cases h
  · exact h

/-- Reading a literal adds no backslash. -/
theorem count_literal_le (cs : List Char) : (literal cs).1.count '\\' ≤ cs.count '\\' := by
  fun_induction literal cs with
  | case1 | case3 | case4 => exact Nat.zero_le _
  | case2 rest text n hread ih =>
    rw [hread] at ih
    simpa using ih
  | case5 c rest text n hread ih =>
    rw [hread] at ih
    dsimp only at ih ⊢
    simp only [List.count_cons, beq_self_eq_true, if_true]
    split <;> omega
  | case6 c rest _ _ _ _ text n hread ih =>
    rw [hread] at ih
    simpa [List.count_cons] using ih

/-- A literal with a backslash loses one. -/
theorem count_literal_lt {cs : List Char} (h : '\\' ∈ cs) (rest : List Char) :
    (literal (doubled '\'' cs ++ rest)).1.count '\\' < (doubled '\'' cs ++ rest).count '\\' := by
  induction cs with
  | nil => cases h
  | cons c cs ih =>
    rw [doubled]
    split
    · rename_i hc
      subst hc
      have hrest : '\\' ∈ cs := (List.mem_cons.1 h).resolve_left (by decide)
      simpa [literal] using ih hrest
    · rename_i hc
      by_cases hslash : c = '\\'
      · subst hslash
        rw [List.cons_append]
        -- the backslash is gone, and the character behind it is no backslash that was not one
        cases doubled '\'' cs ++ rest with
        | nil => simp [literal]
        | cons d more =>
          have hle := count_literal_le more
          have hsame : unescaped d = '\\' → d = '\\' := eq_of_unescaped
          simp only [literal, List.count_cons, beq_self_eq_true, if_true, beq_iff_eq]
          split
          · rename_i hd
            rw [if_pos (hsame hd)]
            omega
          · omega
      · have hrest : '\\' ∈ cs := (List.mem_cons.1 h).resolve_left (Ne.symm hslash)
        rw [List.cons_append, literal_cons hc hslash]
        simpa [List.count_cons] using ih hrest

/-- A token that is read back from what is shown of it alone is plain. -/
theorem isPlain_of_tokensOf {t : Token} (h : tokensOf t.text.toList = [t, .eof]) :
    t.isPlain = true := by
  cases t with
  | ident name =>
    rw [Token.text] at h
    cases hname : name.toList with
    | nil =>
      rw [hname, tokensOf_nil] at h
      cases h
    | cons c rest =>
      have hlength : name.toList.length = rest.length + 1 := by
        rw [hname, List.length_cons]
      rw [hname, tokensOf_cons] at h
      cases hnext : (next c rest).1 with
      | none =>
        -- a name is not read from less than itself
        rw [hnext, Option.toList_none, List.nil_append] at h
        have hle := length_le_of_ident_mem (h ▸ List.mem_cons_self :
          Token.ident name ∈ tokensOf (rest.drop (next c rest).2))
        rw [List.length_drop] at hle
        omega
      | some t =>
        rw [hnext, Option.toList_some, List.cons_append, List.cons.injEq] at h
        obtain ⟨rfl, -⟩ := h
        suffices hword : isWordText name = true ∧ ofWord name = .ident name by
          simp [Token.isPlain, hword]
        generalize ht : Token.ident name = t at hnext ⊢
        cases tokenAt_next hnext with
        | word hword =>
          have hsame := ident_of_ofWord ht.symm
          have hrest : rest = rest.takeWhile isWordChar := by
            rw [← hsame, String.toList_ofList] at hname
            exact (List.tail_eq_of_cons_eq hname).symm
          have hall : ∀ d ∈ rest, isWordChar d = true := by
            intro d hd
            rw [hrest] at hd
            exact List.mem_takeWhile_imp hd
          have htext : isWordText name = true := by
            unfold isWordText
            rw [hname]
            simpa [hword] using hall
          exact ⟨htext, hsame ▸ rfl⟩
        | quoted hle =>
          cases ht
          omega
        | string | number | operator => cases ht
        | fixed hfixed => simp [fixedSymbols, ← ht] at hfixed
  | str value =>
    have htext : (Token.str value).text.toList = '\'' :: (doubled '\'' value.toList ++ ['\'']) := by
      simp [Token.text, enclosed]
    have hnext (cs : List Char) : (next '\'' cs).1 = some (.str (String.ofList (literal cs).1)) :=
      rfl
    rw [htext, tokensOf_cons, hnext, Option.toList_some, List.cons_append, List.cons.injEq] at h
    have hvalue : (literal (doubled '\'' value.toList ++ ['\''])).1 = value.toList := by
      have hsame := congrArg String.toList (Token.str.inj h.1)
      rwa [String.toList_ofList] at hsame
    rw [Token.isPlain, Bool.not_eq_true', ← Bool.not_eq_true, List.contains_iff_mem]
    intro hslash
    have hlt := count_literal_lt hslash ['\'']
    rw [hvalue, List.count_append, count_doubled] at hlt
    simp at hlt
  | _ => rfl

/-- A number without a dot takes one that is written behind it. -/
theorem number_dot {cs : List Char} (h : '.' ∉ number false cs) :
    number false (number false cs ++ ['.']) = number false cs ++ ['.'] := by
  induction cs with
  | nil => rfl
  | cons c cs ih =>
    rw [number] at h ⊢
    split
    · rename_i hc
      rw [if_pos hc, List.mem_cons, not_or] at h
      rw [List.cons_append, number, if_pos hc, ih h.2]
    · rename_i hc
      rw [if_neg hc] at h
      split
      · rename_i hdot
        rw [if_pos hdot, Bool.and_eq_true, beq_iff_eq] at *
        exact absurd (hdot.1 ▸ List.mem_cons_self) h
      · rfl

/-- A number without a dot runs on into a dot. -/
theorem tokensOf_number_dot {digits : String} (h : IsNumber digits) (hdot : '.' ∉ digits.toList) :
    ∃ t, tokensOf (digits.toList ++ ['.']) = [t, .eof] := by
  obtain ⟨sign, c, more, hsign, hc, hdigits⟩ := h
  have hnone : '.' ∉ number false more := by
    intro hmem
    rw [hdigits, number, if_pos hc] at hdot
    exact hdot (List.mem_append_right _ (List.mem_cons_of_mem _ hmem))
  have hnumber : IsNumber (String.ofList (digits.toList ++ ['.'])) := by
    refine ⟨sign, c, number false more ++ ['.'], hsign, hc, ?_⟩
    rw [String.toList_ofList, hdigits, number, if_pos hc, number, if_pos hc, number_dot hnone]
    simp
  have hread := tokensOf_number [] hnumber (by simp)
  rw [String.toList_ofList, List.append_nil, tokensOf_nil] at hread
  exact ⟨_, hread⟩

-- ---------------------------------------------------------------------------
-- Defaults
-- ---------------------------------------------------------------------------

/-- What is rendered of a run is read back as the run. -/
def ReadBack (ts : List Token) : Prop :=
  tokensOf (render ts).toList = ts ++ [Token.eof]

/-- Plain tokens that stand apart are read back. -/
theorem readBack_of_plain {ts : List Token} (hlexed : ∀ t ∈ ts, t.Lexed ∧ t ≠ .eof)
    (hplain : ∀ t ∈ ts, t.isPlain = true) (hapart : Apart ts) : ReadBack ts := by
  have hread := tokensOf_renderAfter [] hlexed hplain
    (by rwa [List.take_nil, List.append_nil]) .lparen
  rw [List.append_nil, renderAfter, String.toList_empty, tokensOf_nil] at hread
  rw [ReadBack, render_eq, hread]

/-- The last of the tokens that are read back is plain, and no number runs on into it. -/
theorem plain_of_readBack {ts : List Token} {t : Token}
    (hlexed : ∀ u ∈ ts ++ [t], u.Lexed ∧ u ≠ .eof) (hplain : ∀ u ∈ ts, u.isPlain = true)
    (hapart : Apart ts) (h : ReadBack (ts ++ [t])) : t.isPlain = true ∧ Apart (ts ++ [t]) := by
  rw [List.forall_mem_append, List.forall_mem_singleton] at hlexed
  rw [ReadBack, render_eq] at h
  have hnext : Apart (ts ++ [t]) := by
    refine List.isChain_append.2 ⟨hapart, List.isChain_singleton t,
      fun before hbefore after hafter => ?_⟩
    obtain rfl : t = after := by simpa using hafter
    rw [← Bool.not_eq_true]
    intro hjoins
    unfold joins at hjoins
    split at hjoins
    · rename_i digits
      rw [Bool.not_eq_true', ← Bool.not_eq_true, List.contains_iff_mem] at hjoins
      obtain ⟨front, rfl⟩ := List.getLast?_eq_some_iff.1 hbefore
      rw [List.forall_mem_append, List.forall_mem_singleton] at hlexed hplain
      -- the tokens before the number are read back, the number takes the dot
      obtain ⟨t, hnumber⟩ := tokensOf_number_dot hlexed.1.2.1 hjoins
      have htext (before : Token) :
          tokensOf (renderAfter before [.num digits, .dot]).toList = [t, .eof] := by
        have hdot : (renderAfter (.num digits) [.dot]).toList = ['.'] := by
          rw [toList_renderAfter]
          rfl
        rw [toList_renderAfter, hdot, ← hnumber]
        split
        · exact tokensOf_blank _
        · rfl
      rw [List.append_assoc, List.singleton_append,
        tokensOf_renderAfter [.num digits, .dot] hlexed.1.1 hplain.1 hapart, htext,
        List.append_assoc] at h
      exact absurd (congrArg List.length (List.append_cancel_left h)) (by simp)
    · cases hjoins
  refine ⟨isPlain_of_tokensOf ?_, hnext⟩
  rw [tokensOf_renderAfter [t] hlexed.1 hplain hnext, tokensOf_renderAfter_single,
    List.append_assoc] at h
  exact List.append_cancel_left h

/-- **Defaults are read back.** The initial parts of a default are all read back from what is
rendered of them just when each of its names is a word of its own, no literal has a backslash, and no
number without a dot stands in front of one. All other tokens always are. -/
theorem defaultExpression_readBack {script : String} {ts left : List Token} {expression : String}
    (hts : ts <:+: tokensOf script.toList) (heof : .eof ∉ ts)
    (h : defaultExpression ts = .ok (expression, left)) :
    ∃ taken, ts = taken ++ left ∧ expression = render taken ∧
      ((∀ part, part <+: taken → ReadBack part) ↔
        (∀ t ∈ taken, t.isPlain = true) ∧ Apart taken) := by
  obtain ⟨taken, -, hspan, rfl⟩ := defaultExpression_eq_ok.1 h
  have hsplit : ts = taken ++ left := by
    have happend := spanDefault_append 0 true ts
    rw [hspan] at happend
    exact happend.symm
  have hlexed : ∀ t ∈ taken, t.Lexed ∧ t ≠ .eof := by
    intro t ht
    have hmem : t ∈ ts := hsplit ▸ List.mem_append_left _ ht
    exact ⟨lexed_of_mem (hts.subset hmem), fun heq => heof (heq ▸ hmem)⟩
  refine ⟨taken, hsplit, rfl, fun hall => ?_, ?_⟩
  · -- induction on the initial parts: each is longer than the one before by one token
    have hpart (part : List Token) (hpart : part <+: taken) :
        (∀ t ∈ part, t.isPlain = true) ∧ Apart part := by
      induction part using List.reverseRecOn with
      | nil => exact ⟨nofun, .nil⟩
      | append_singleton part t ih =>
        obtain ⟨hplain, hapart⟩ := ih ((List.prefix_append _ _).trans hpart)
        have hmore := plain_of_readBack (fun u hu => hlexed u (hpart.subset hu)) hplain hapart
          (hall _ hpart)
        exact ⟨List.forall_mem_append.2 ⟨hplain, List.forall_mem_singleton.2 hmore.1⟩, hmore.2⟩
    exact hpart taken List.prefix_rfl
  · rintro ⟨hplain, hapart⟩ part hpart
    exact readBack_of_plain (fun t ht => hlexed t (hpart.subset ht))
      (fun t ht => hplain t (hpart.subset ht)) (hapart.initial hpart)

/-- A call with a literal is read back. -/
theorem defaultExpression_readBack_of_call :
    let script := "nextval('it''s'::regclass) + -1.5, b"
    let ts := (tokensOf script.toList).dropLast
    let left := [.comma, .ident "b"]
    defaultExpression ts = .ok ("nextval('it''s'::regclass) + -1.5", left) ∧
      ∃ taken, ts = taken ++ left ∧ ReadBack taken := by
  intro script ts left
  have hread : defaultExpression ts = .ok ("nextval('it''s'::regclass) + -1.5", left) := by
    decide +kernel
  obtain ⟨taken, hsplit, -, hiff⟩ := defaultExpression_readBack
    (List.dropLast_prefix _).isInfix (by decide +kernel : .eof ∉ ts) hread
  have hplain : ∀ t ∈ ts, t.isPlain = true := by decide +kernel
  have hapart : Apart ts := by
    unfold Apart
    decide +kernel
  have hfront : taken <+: ts := ⟨left, hsplit.symm⟩
  exact ⟨hread, taken, hsplit,
    hiff.2 ⟨fun t ht => hplain t (hfront.subset ht), hapart.initial hfront⟩ taken List.prefix_rfl⟩

/-- A default whose text does not give back what it was made of. -/
theorem default_of_backslash_not_readBack :
    let ts := (tokensOf "'a\\\\b'".toList).dropLast
    defaultExpression ts = .ok ("'a\\b'", []) ∧ ts = [.str "a\\b"] ∧
      tokensOf "'a\\b'".toList = [.str "ab", .eof] := by
  decide +kernel

end Parser

end CrudGen.Sql
