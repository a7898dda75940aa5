import CrudGen.Proofs.Data.Except
import CrudGen.Proofs.Sql.Clauses
import CrudGen.Proofs.Sql.Local

/-!
# Parsers — edges

Where one clause of a column ends and another begins, the parser of the first has to stop at the
second. It does so for what cannot go on with what it reads: `Edge` says of two such continuations
that they are alike to whatever stands before them. Names, groups in parentheses, lists of columns
and types are then read in front of the one as in front of the other.

Main results:

* `consumes_columnList` — a list of columns does not see what stands behind it.
* `consumes_writtenType` — nor does a type.
-/

namespace CrudGen.Sql.Parser

/-- Tokens that end an element of a list. -/
def Closes (ts : List Token) : Prop :=
  ∀ t ∈ ts.head?, t = .comma ∨ t = .rparen

/-- A closing parenthesis ends an element. -/
theorem Closes.rparen (tail : List Token) : Closes (.rparen :: tail) := by
  simp [Closes]

/-- A comma ends an element. -/
theorem Closes.comma (tail : List Token) : Closes (.comma :: tail) := by
  simp [Closes]

theorem Closes.nil : Closes [] := by
  simp [Closes]

/-- What ends an element is no keyword. -/
theorem Closes.ne_keyword {ts : List Token} (h : Closes ts) (k : Keyword) :
    front ts ≠ .keyword k := by
  cases ts with
  | nil => exact Token.noConfusion
  | cons t more => obtain rfl | rfl := h t rfl <;> exact Token.noConfusion

/-- Tokens that go on with what stands before them. -/
def goesOn : Token → Bool
  | .lparen | .dot | .brackets | .str _ | .num _ => true
  | .keyword k => [Keyword.key, .index, .update, .delete].contains k
  | _ => false

/-- Whether a word goes on with a type. -/
def goesOnWithType : Token → Bool
  | .ident word => typeContinuations.contains (Text.toLower word)
  | _ => false

/-- Two continuations that look alike to what stands before them. What stops at the one stops at the
other. -/
structure Edge (τ τ' : List Token) : Prop where
  some    : front τ ≠ .eof
  fresh   : goesOn (front τ) = false
  fresh'  : goesOn (front τ') = false
  closes  : front τ = .comma ∨ front τ = .rparen → Closes τ'
  default : endsDefault (front τ) = true → Closes τ' ∨ endsDefault (front τ') = true
  type    : goesOnWithType (front τ) = false → goesOnWithType (front τ') = false
  word    : ∀ w, Text.sameName "GENERATED" w = false → isWord w (front τ) = false →
              isWord w (front τ') = false

variable {α β σ : Type} {τ τ' : List Token} {Q : Prop}

/-- There is something behind an edge. -/
theorem Edge.ne_nil (h : Edge τ τ') : τ ≠ [] := by
  rintro rfl
  exact h.some rfl

variable (h : Edge τ τ')
include h

/-- Neither continuation begins with an opening parenthesis, which would be read as a group. -/
theorem Edge.ne_lparen : front τ ≠ .lparen ∧ front τ' ≠ .lparen := by
  have hfresh := h.fresh
  have hfresh' := h.fresh'
  constructor
  · intro hfront
    simp [hfront, goesOn] at hfresh
  · intro hfront
    simp [hfront, goesOn] at hfresh'

-- ---------------------------------------------------------------------------
-- Single tokens
-- ---------------------------------------------------------------------------

/-- An edge has a token, so that to go on past it is to read it. -/
theorem consumes_advance : Consumes τ τ' Q advance :=
  .advance h.ne_nil

/-- A token and nothing behind it. -/
theorem consumes_token (a : α) : Consumes τ τ' Q (do advance; return a) :=
  .before (consumes_advance h) fun _ => .pure a

/-- A choice of one token does not see the edge if it turns the second continuation down where it
turns the first one down. -/
theorem local_accept {p : Token → Bool} (hp : p (front τ) = false → p (front τ') = false) :
    Local τ τ' Q (accept p) := by
  refine .look h.ne_nil (fun t => .ite (fun _ => (consumes_token h true).toLocal)
    fun _ => .pure false) ?_
  cases hfront : p (front τ) with
  | true =>
    rw [if_pos rfl]
    exact .inl (consumes_token (Q := True) h true).eager
  | false =>
    rw [hp hfront]
    exact .inr rfl

/-- A token that has to be there is not found in the continuation instead. -/
theorem consumes_expect (token : Token) (what : String) :
    Consumes τ τ' Q (expect token what) :=
  .look h.ne_nil fun _ => .ite (fun _ => consumes_advance h) fun _ => .refuse what

omit h in
/-- What is expected has been the next token. -/
theorem front_of_expect {token : Token} {what : String} {ts rest : List Token} {u : Unit}
    (hrun : expect token what ts = .ok (u, rest)) : front ts = token := by
  change (if front ts == token then advance else refuse what : Parser Unit) ts = _ at hrun
  split at hrun
  · exact beq_iff_eq.1 ‹_›
  · obtain ⟨e, he⟩ := refuse_fails (α := Unit) what ts
    rw [he] at hrun
    cases hrun

/-- A name in front of an edge is one token of its own. -/
theorem consumes_name (what : String) : Consumes τ τ' Q (name what) := by
  refine .look h.ne_nil fun t => ?_
  split
  · exact consumes_token h _
  · exact .refuse what

/-- No edge goes on with a name that has dots. -/
theorem local_accept_dot : Local τ τ' Q (accept (· == .dot)) := by
  refine local_accept h fun _ => ?_
  have hfresh := h.fresh'
  cases hfront : front τ' with
  | dot => simp [hfront, goesOn] at hfresh
  | _ => rfl

omit h in
/-- A name ends where there is no dot. -/
theorem namePart_end {what : String} {parts : List String} {ts : List Token}
    (hend : front ts ≠ .dot) : namePart what parts ts = .ok (.done parts, ts) := by
  have hdot : (front ts == .dot) = false := by simpa using hend
  change ((if front ts == .dot then do advance; return true else return false) >>= fun dot =>
    if dot then do return .yield (parts ++ [← name what]) else return .done parts :
      Parser (ForInStep (List String))) ts = _
  rw [hdot]
  rfl

omit h in
/-- Parts of a name end where there is no dot. -/
theorem moreParts_end {what : String} {parts : List String} {ts : List Token}
    (hend : front ts ≠ .dot) : moreParts what parts ts = .ok (parts, ts) := by
  rw [moreParts, iterate, namePart_end hend]

omit h in
/-- A name is read from the next token, or not at all. -/
theorem name_run (what : String) (ts : List Token) : name what ts =
    (nameOf? (front ts)).elim (refuse what ts) fun n => .ok (n, ts.drop 1) := by
  cases ts with
  | nil => rfl
  | cons t rest => cases t <;> rfl

omit h in
/-- A token that is a name is read as one. -/
theorem name_eq_ok {what n : String} {t : Token} {ts : List Token} (ht : nameOf? t = some n) :
    name what (t :: ts) = .ok (n, ts) := by
  rw [name_run]
  change (nameOf? t).elim _ _ = _
  rw [ht]
  rfl

omit h in
/-- A dot and a name are one more part. -/
theorem moreParts_dot {what n : String} {parts : List String} {t : Token} {ts : List Token}
    (ht : nameOf? t = some n) :
    moreParts what parts (.dot :: t :: ts) = moreParts what (parts ++ [n]) ts := by
  have hyield : namePart what parts (.dot :: t :: ts) = .ok (.yield (parts ++ [n]), ts) := by
    change Except.bind (name what (t :: ts)) _ = _
    rw [name_eq_ok ht]
    rfl
  have hlt : ts.length < (Token.dot :: t :: ts).length :=
    Nat.lt_add_of_pos_right (by decide : 0 < 2)
  rw [moreParts, iterate, hyield]
  simp only [hlt, if_true]
  rfl

/-- A name with dots is read to its last part. -/
theorem consumes_nameParts (what : String) : Consumes τ τ' Q (nameParts what) := by
  refine .before (consumes_name h what) fun first => .iterate (fun parts => ?_) _
  exact .bind (local_accept_dot h) fun _ => .ite
    (fun _ => .bind (consumes_name h what).toLocal fun _ => .pure _) fun _ => .pure _

theorem consumes_qualifiedName (what : String) : Consumes τ τ' Q (qualifiedName what) :=
  .before (consumes_nameParts h what) fun _ => .pure _

/-- If one continuation begins with none of some words, nor does the other. Only `GENERATED` may
tell them apart. -/
theorem Edge.words {words : List String}
    (hwords : ∀ w ∈ words, Text.sameName "GENERATED" w = false)
    (hτ : isOneOf words (front τ) = false) : isOneOf words (front τ') = false := by
  rw [isOneOf, List.any_eq_false] at hτ ⊢
  intro w hw
  rw [Bool.not_eq_true]
  exact h.word w (hwords w hw) (by simpa using hτ w hw)

/-- A choice of some words does not see the edge unless `GENERATED` is one of them. -/
theorem local_accept_words {words : List String}
    (hwords : ∀ w ∈ words, Text.sameName "GENERATED" w = false) :
    Local τ τ' Q (accept (isOneOf words)) :=
  local_accept h (h.words hwords)

/-- A choice of one word does not see the edge unless it is `GENERATED`. -/
theorem local_accept_word {word : String} (hword : Text.sameName "GENERATED" word = false) :
    Local τ τ' Q (accept (isWord word)) :=
  local_accept h (h.word word hword)

-- ---------------------------------------------------------------------------
-- Parenthesised groups
-- ---------------------------------------------------------------------------

omit h in
/-- The search for a closing parenthesis leaves an end of the tokens, and has read something. -/
theorem length_afterClosing {depth : Nat} {ts rest : List Token}
    (hrest : afterClosing depth ts = some rest) : rest <:+ ts ∧ rest.length < ts.length := by
  fun_induction afterClosing depth ts with
  | case1 => cases hrest
  | case2 depth rest' ih =>
    exact ⟨(ih hrest).1.trans (List.suffix_cons _ _), Nat.lt_succ_of_lt (ih hrest).2⟩
  | case3 rest' =>
    cases hrest
    exact ⟨List.suffix_cons _ _, Nat.lt_succ_self _⟩
  | case4 rest' d ih =>
    exact ⟨(ih hrest).1.trans (List.suffix_cons _ _), Nat.lt_succ_of_lt (ih hrest).2⟩
  | case5 depth t rest' _ _ _ ih =>
    exact ⟨(ih hrest).1.trans (List.suffix_cons _ _), Nat.lt_succ_of_lt (ih hrest).2⟩

omit h in
/-- A parenthesis that is found before the edge is found there with any continuation. -/
theorem afterClosing_moves {depth : Nat} {before left : List Token}
    (hrest : afterClosing depth (before ++ τ) = some (left ++ τ)) :
    afterClosing depth (before ++ τ') = some (left ++ τ') := by
  fun_induction afterClosing depth before with
  | case1 =>
    exact absurd (length_afterClosing hrest).2 (by simp)
  | case2 depth rest ih => exact ih hrest
  | case3 rest =>
    have := List.append_cancel_right (Option.some.inj hrest)
    exact congrArg (fun rest => some (rest ++ τ')) this
  | case4 rest d ih => exact ih hrest
  | case5 depth t rest hopen hclose hinner ih =>
    have hnext (more : List Token) : afterClosing depth (t :: more) = afterClosing depth more := by
      rw [afterClosing]
      · exact hopen
      · exact hclose
      · exact hinner
    rw [List.cons_append, hnext] at hrest ⊢
    exact ih hrest

omit h in
/-- What a function of the tokens reads and leaves. -/
theorem local_of_reads {γ : Type} {read : List Token → Except SyntaxError (γ × List Token)}
    (hsuffix : ∀ ⦃ts c rest⦄, read ts = .ok (c, rest) → rest <:+ ts)
    (hmoves : ∀ ⦃before c left⦄, read (before ++ τ) = .ok (c, left ++ τ) →
      read (before ++ τ') = .ok (c, left ++ τ')) : Local τ τ' Q (read : Parser γ) :=
  ⟨hsuffix, fun _ _ _ _ => @hmoves _ _ _⟩

omit h in
/-- What closes a group without an error has found its parenthesis. -/
theorem afterClosing_of_closing {ts rest : List Token} (hrun : closing ts = .ok ((), rest)) :
    afterClosing 0 ts = some rest := by
  rw [closing] at hrun
  cases hrest : afterClosing 0 ts with
  | none =>
    rw [hrest] at hrun
    cases hrun
  | some left =>
    rw [hrest] at hrun
    cases hrun
    rfl

omit h in
/-- Groups are closed before the edge. -/
theorem local_closing : Local τ τ' Q closing := by
  refine local_of_reads (fun ts _ rest hrun => ?_) fun before _ left hrun => ?_
  · exact (length_afterClosing (afterClosing_of_closing hrun)).1
  · rw [closing, afterClosing_moves (afterClosing_of_closing hrun)]

/-- A group is its opening parenthesis and what the search behind it reads. -/
theorem consumes_skipParenthesized : Consumes τ τ' Q skipParenthesized := by
  rw [skipParenthesized]
  exact .before (consumes_expect h .lparen "(") fun _ => local_closing

-- ---------------------------------------------------------------------------
-- The rest of an element
-- ---------------------------------------------------------------------------

omit h in
/-- The end of an element is an end of the tokens. -/
theorem fromElementEnd_suffix (depth : Nat) (ts : List Token) : fromElementEnd depth ts <:+ ts := by
  fun_induction fromElementEnd depth ts with
  | case1 => exact List.suffix_rfl
  | case2 | case3 => exact List.suffix_rfl
  | case4 depth rest ih | case5 rest d ih | case6 depth t rest _ _ _ _ ih =>
    exact ih.trans (List.suffix_cons _ _)

omit h in
/-- An element ends at once where something closes it. -/
theorem fromElementEnd_of_closes {ts : List Token} (hts : Closes ts) : fromElementEnd 0 ts = ts := by
  cases ts with
  | nil => rfl
  | cons t rest => obtain rfl | rfl := hts t rfl <;> rfl

omit h in
/-- Only the end of an element is left as it is. -/
theorem closes_of_fromElementEnd {depth : Nat} {t : Token} {rest left : List Token}
    (hrest : fromElementEnd depth (t :: rest) = left ++ t :: rest) :
    depth = 0 ∧ left = [] ∧ (t = .comma ∨ t = .rparen) := by
  -- what is left is shorter than what was given, unless the first token ends the element
  have hnot (d : Nat) : fromElementEnd d rest ≠ left ++ t :: rest := fun heq => by
    have := (fromElementEnd_suffix d rest).length_le
    rw [heq] at this
    simp at this
    omega
  rw [fromElementEnd.eq_def] at hrest
  split at hrest
  · rename_i heq
    cases heq
  · rename_i heq
    obtain ⟨rfl, rfl⟩ := List.cons.inj heq
    split at hrest
    · exact ⟨rfl, by simpa using hrest, .inl rfl⟩
    · exact ⟨rfl, by simpa using hrest, .inr rfl⟩
    · exact absurd hrest (hnot _)
    · exact absurd hrest (hnot _)
    · exact absurd hrest (hnot _)

/-- The end of an element before the edge is its end with any continuation. -/
theorem fromElementEnd_moves {depth : Nat} {before left : List Token}
    (hrest : fromElementEnd depth (before ++ τ) = left ++ τ) :
    fromElementEnd depth (before ++ τ') = left ++ τ' := by
  fun_induction fromElementEnd depth before with
  -- nothing of the element is left, so its end is the first token of the edge
  | case1 depth =>
    obtain ⟨t, rest, rfl⟩ := List.exists_cons_of_ne_nil h.ne_nil
    obtain ⟨rfl, rfl, hclosing⟩ := closes_of_fromElementEnd hrest
    exact fromElementEnd_of_closes (h.closes hclosing)
  | case2 rest =>
    have hleft : .comma :: rest = left := List.append_cancel_right hrest
    rw [← hleft]
    rfl
  | case3 rest =>
    have hleft : .rparen :: rest = left := List.append_cancel_right hrest
    rw [← hleft]
    rfl
  | case4 depth rest ih => exact ih hrest
  | case5 rest d ih => exact ih hrest
  -- any other token is passed over, and the level stays
  | case6 depth t rest hcomma hrparen hlparen hinner ih =>
    have hnext (more : List Token) :
        fromElementEnd depth (t :: more) = fromElementEnd depth more := by
      rw [fromElementEnd]
      · exact hcomma
      · exact hrparen
      · exact hlparen
      · exact hinner
    rw [List.cons_append, hnext] at hrest ⊢
    exact ih hrest

/-- The rest of an element is dropped up to the edge at most. -/
theorem local_skipElement : Local τ τ' Q skipElement := by
  have hread : (skipElement : Parser Unit) = fun ts => .ok ((), fromElementEnd 0 ts) := rfl
  rw [hread]
  refine local_of_reads (fun ts _ rest hrun => ?_) fun before _ left hrun => ?_
  · cases hrun
    exact fromElementEnd_suffix 0 ts
  · have hrest := congrArg Prod.snd (Except.ok.inj hrun)
    dsimp only at hrest ⊢
    rw [fromElementEnd_moves h hrest]

-- ---------------------------------------------------------------------------
-- Lists of columns
-- ---------------------------------------------------------------------------

/-- Suffixes of a column do not go over the edge, which is neither a parenthesis nor a word of
theirs. -/
theorem local_skipColumnSuffixes : Local τ τ' Q skipColumnSuffixes := by
  refine .iterate (fun _ => .look h.ne_nil (fun t => .ite (fun _ => ?_) fun _ => .ite (fun _ => ?_)
    fun _ => .pure _) ?_) ()
  · exact .bind (consumes_skipParenthesized h).toLocal fun _ => .pure _
  · exact (consumes_token h _).toLocal
  · have hparen : (front τ' == .lparen) = false := by simpa using h.ne_lparen.2
    have hparen' : (front τ == .lparen) = false := by simpa using h.ne_lparen.1
    rw [hparen, hparen', if_neg Bool.false_ne_true, if_neg Bool.false_ne_true]
    cases hsort : isOneOf sortWords (front τ) with
    | true =>
      rw [if_pos rfl]
      exact .inl (consumes_token (Q := True) h _).eager
    | false =>
      rw [h.words (by decide +kernel) hsort]
      exact .inr rfl

/-- Every round of a list reads a token. -/
theorem consumes_listColumn (columns : List String) : Consumes τ τ' Q (listColumn columns) := by
  refine .look h.ne_nil fun t => ?_
  split
  · exact consumes_token h _
  · exact .throw _
  · exact consumes_token h _
  · exact .before (consumes_name h _) fun _ => .bind (local_skipColumnSuffixes h) fun _ => .pure _

/-- A list of columns is read to its own parenthesis. -/
theorem consumes_columnList : Consumes τ τ' Q columnList := by
  rw [columnList]
  exact .before (consumes_expect h _ _) fun _ =>
    .bind (.iterate (fun columns => (consumes_listColumn h columns).toLocal) _) fun _ =>
      .ite (fun _ => .bind (.throw _) fun _ => .pure _) fun _ => .pure _

-- ---------------------------------------------------------------------------
-- Types
-- ---------------------------------------------------------------------------

/-- What a token is among the arguments of a type: it ends them, spoils them or adds to them. -/
inductive ArgumentToken (t : Token) : Prop
  | ends (h : ∀ rest, typeArguments (t :: rest) = .ok ({}, rest))
  | spoils (e : SyntaxError) (h : ∀ rest, typeArguments (t :: rest) = .error e)
  | adds (add : TypeArguments → TypeArguments) (h : ∀ rest, typeArguments (t :: rest) =
      (typeArguments rest).map fun read => (add read.1, read.2))

omit h in
/-- What a token says inside the parameters of a type, whichever it is. -/
theorem argumentToken (t : Token) : ArgumentToken t := by
  have hshown (u : Token) (hu : ∀ rest, typeArguments (u :: rest) = typeArguments rest >>=
      fun read => .ok ({ read.1 with shown := u.text :: read.1.shown }, read.2)) :
      ArgumentToken u := by
    refine .adds (fun args => { args with shown := u.text :: args.shown }) fun rest => ?_
    rw [hu]
    cases typeArguments rest <;> rfl
  -- a bracket ends the arguments; a number too large for a size spoils them
  cases t with
  | rparen => exact .ends fun _ => rfl
  | num digits =>
    cases hsize : Text.size? digits with
    | none =>
      refine .spoils (.invalidNumber digits) fun rest => ?_
      simp only [typeArguments, hsize]
    | some n =>
      refine .adds (fun args => { args with
        sizes := n :: args.sizes, shown := digits :: args.shown }) fun rest => ?_
      simp only [typeArguments, hsize]
      cases typeArguments rest <;> rfl
  | str label =>
    refine .adds (fun args => { args with
      labels := label :: args.labels, shown := (Token.str label).text :: args.shown }) fun rest => ?_
    rw [typeArguments]
    cases typeArguments rest <;> rfl
  | comma =>
    refine .adds id fun rest => ?_
    rw [typeArguments]
    cases typeArguments rest <;> rfl
  | _ => exact hshown _ fun _ => rfl

omit h in
/-- Parameters leave an end of the tokens, and their parenthesis has been read. -/
theorem typeArguments_suffix {ts rest : List Token} {args : TypeArguments}
    (hread : typeArguments ts = .ok (args, rest)) : rest <:+ ts ∧ rest.length < ts.length := by
  induction ts generalizing args rest with
  | nil => cases hread
  | cons t ts ih =>
    obtain hend | ⟨e, hspoilt⟩ | ⟨add, hadd⟩ := argumentToken t
    · rw [hend] at hread
      cases hread
      exact ⟨List.suffix_cons _ _, Nat.lt_succ_self _⟩
    · rw [hspoilt] at hread
      cases hread
    · rw [hadd] at hread
      obtain ⟨⟨more, left⟩, hmore, heq⟩ := ok_of_map hread
      cases heq
      exact ⟨(ih hmore).1.trans (List.suffix_cons _ _), Nat.lt_succ_of_lt (ih hmore).2⟩

omit h in
/-- Parameters that end before the edge are read with any continuation. -/
theorem typeArguments_moves {before left : List Token} {args : TypeArguments}
    (hread : typeArguments (before ++ τ) = .ok (args, left ++ τ)) :
    typeArguments (before ++ τ') = .ok (args, left ++ τ') := by
  induction before generalizing args with
  | nil =>
    exact absurd (typeArguments_suffix hread).2 (by simp)
  | cons t before ih =>
    rw [List.cons_append] at hread ⊢
    -- a token of the arguments ends them, spoils them or adds to them
    obtain hend | ⟨e, hspoilt⟩ | ⟨add, hadd⟩ := argumentToken t
    · rw [hend] at hread ⊢
      have hargs := congrArg Prod.fst (Except.ok.inj hread)
      have hleft := congrArg Prod.snd (Except.ok.inj hread)
      obtain rfl : {} = args := hargs
      rw [← List.append_cancel_right hleft]
    · rw [hspoilt] at hread
      cases hread
    · rw [hadd] at hread ⊢
      obtain ⟨⟨more, rest⟩, hmore, heq⟩ := ok_of_map hread
      obtain ⟨rfl, rfl⟩ := Prod.mk.inj heq
      rw [ih hmore]
      rfl

omit h in
/-- Parameters of a type do not go over the edge. -/
theorem local_typeArguments : Local τ τ' Q (typeArguments : Parser TypeArguments) :=
  local_of_reads (fun _ _ _ hread => (typeArguments_suffix hread).1) fun _ _ _ =>
    typeArguments_moves

/-- A suffix of a type does not see the edge, which goes on with no type. -/
theorem local_typeSuffix (w : WrittenType) : Local τ τ' Q (typeSuffix w) := by
  refine .look h.ne_nil (fun t => ?_) ?_
  · split
    · exact .bind (consumes_advance h).toLocal fun _ => .bind local_typeArguments fun _ => .pure _
    · exact .ite (fun _ => (consumes_token h _).toLocal) fun _ => .pure _
    · exact (consumes_token h _).toLocal
    · exact .pure _
  · have hfresh := h.fresh
    have hfresh' := h.fresh'
    -- a type that goes on does so by a word, which is read
    cases htype : goesOnWithType (front τ) with
    | true =>
      cases hfront : front τ with
      | ident word =>
        rw [hfront, goesOnWithType] at htype
        simp only [htype, if_true]
        exact .inl (consumes_token (Q := True) h _).eager
      | _ => simp [hfront, goesOnWithType] at htype
    | false =>
      have htype' := h.type htype
      refine .inr (Eq.trans (b := (pure (.done w) : Parser (ForInStep WrittenType))) ?_ ?_)
      · cases hfront : front τ' <;> simp_all [goesOn, goesOnWithType]
      · cases hfront : front τ <;> simp_all [goesOn, goesOnWithType]

/-- A type is a token at least, and ends before the edge. -/
theorem consumes_writtenType (column : String) : Consumes τ τ' Q (writtenType column) := by
  have hrest (first : String) : Local τ τ' Q (typeFrom first) :=
    .bind (.iterate (fun n => .bind (local_accept_dot h) fun _ => .ite
      (fun _ => .bind (consumes_name h _).toLocal fun _ => .pure _) fun _ => .pure _) _)
      fun last => .iterate (local_typeSuffix h) _
  refine .look h.ne_nil fun t => ?_
  split
  · exact .before (consumes_advance h) fun _ => hrest _
  · exact .before (consumes_advance h) fun _ => hrest _
  · exact .before (.throw _) fun _ => hrest _

end CrudGen.Sql.Parser
