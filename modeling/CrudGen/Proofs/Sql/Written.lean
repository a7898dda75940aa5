import CrudGen.Proofs.Sql.ClauseEdges

/-!
# Parsers — how names, groups, defaults and types are written

Each of these is read up to its last token, and what follows does not matter as long as it does not
go on with it.

Main results:

* `qualifiedName_dotted`, `skipParenthesized_group`, `defaultExpression_text` — what is read of a
  name, a group and a default.
* `writtenType_append` — a type that is read to its end is read in the same way before more tokens.
-/

namespace CrudGen.Sql.Parser

variable {ts rest left τ : List Token}

-- ---------------------------------------------------------------------------
-- Names
-- ---------------------------------------------------------------------------

/-- A name is one token. -/
theorem name_cases {what n : String} (h : name what ts = .ok (n, rest)) :
    nameOf? (front ts) = some n ∧ rest = ts.drop 1 := by
  rw [name_run] at h
  cases hname : nameOf? (front ts) with
  | some n =>
    rw [hname] at h
    cases h
    exact ⟨rfl, rfl⟩
  | none =>
    rw [hname, Option.elim_none] at h
    obtain ⟨e, he⟩ := refuse_fails (α := String) what ts
    rw [he] at h
    cases h

/-- A name with dots in it, whose last part is `n`. -/
inductive DottedName : List Token → String → Prop
  | last {t : Token} {n : String} (ht : nameOf? t = some n) : DottedName [t] n
  | part {t : Token} {ts : List Token} {m n : String} (ht : nameOf? t = some m)
      (h : DottedName ts n) : DottedName (t :: .dot :: ts) n

/-- A name with dots is read as its last part. -/
theorem qualifiedName_dotted {named : List Token} {n : String} (h : DottedName named n)
    (hend : front rest ≠ .dot) (what : String) :
    qualifiedName what (named ++ rest) = .ok (n, rest) := by
  -- a dotted name keeps its last part, whatever was read before it
  have hparts (parts : List String) : ∃ t m more, named = t :: more ∧ nameOf? t = some m ∧
      ∃ parts', moreParts what (parts ++ [m]) (more ++ rest) = .ok (parts', rest) ∧
        parts'.getLast? = some n := by
    induction h generalizing parts with
    | @last t n ht => exact ⟨t, n, [], rfl, ht, _, moreParts_end hend, by simp⟩
    | @part t ts m n ht _ ih =>
      obtain ⟨t', m', more', rfl, ht', hmore⟩ := ih (parts ++ [m])
      refine ⟨t, m, _, rfl, ht, ?_⟩
      rw [List.cons_append, List.cons_append, moreParts_dot ht']
      exact hmore
  obtain ⟨t, m, more, rfl, ht, parts', hread, hlast⟩ := hparts []
  rw [qualifiedName, nameParts]
  change Except.bind (Except.bind (name what (t :: (more ++ rest))) _) _ = _
  rw [name_eq_ok ht]
  change Except.bind (moreParts what ([] ++ [m]) (more ++ rest)) _ = _
  rw [hread]
  change Except.ok (parts'.getLast?.getD "", rest) = _
  rw [hlast]
  rfl

-- ---------------------------------------------------------------------------
-- Groups
-- ---------------------------------------------------------------------------

/-- Tokens in which every parenthesis has its partner. -/
inductive Balanced : List Token → Prop
  | nil : Balanced []
  | token {t : Token} {ts : List Token} (hopen : t ≠ .lparen) (hclose : t ≠ .rparen)
      (h : Balanced ts) : Balanced (t :: ts)
  | group {inner ts : List Token} (hinner : Balanced inner) (h : Balanced ts) :
      Balanced (.lparen :: (inner ++ .rparen :: ts))

/-- Balanced tokens are passed over in the search for a parenthesis. -/
theorem afterClosing_balanced (h : Balanced ts) (depth : Nat) (rest : List Token) :
    afterClosing depth (ts ++ rest) = afterClosing depth rest := by
  induction h generalizing depth rest with
  | nil => rfl
  | @token t ts hopen hclose _ ih =>
    rw [List.cons_append, afterClosing]
    · exact ih depth rest
    · exact hopen
    · exact fun h => absurd h hclose
    · exact fun _ h => absurd h hclose
  | @group inner ts _ _ ihinner ih =>
    rw [List.cons_append, List.append_assoc, List.cons_append, afterClosing, ihinner, afterClosing]
    exact ih depth rest

/-- Tokens in parentheses. -/
def group (inner : List Token) : List Token :=
  Token.lparen :: (inner ++ [Token.rparen])

/-- A group is skipped with both of its parentheses. -/
theorem skipParenthesized_group {inner : List Token} (h : Balanced inner) (rest : List Token) :
    skipParenthesized (group inner ++ rest) = .ok ((), rest) := by
  have hinner : afterClosing 0 (inner ++ [Token.rparen] ++ rest) = some rest := by
    rw [List.append_assoc, afterClosing_balanced h]
    rfl
  change closing (inner ++ [Token.rparen] ++ rest) = _
  rw [closing, hinner]

-- ---------------------------------------------------------------------------
-- Defaults
-- ---------------------------------------------------------------------------

/-- A default from some token on: outside parentheses stands no comma, and what begins a clause
stands there only as the first token of all. -/
inductive DefaultText : (first : Bool) → List Token → Prop
  | nil : DefaultText false []
  | token {first : Bool} {t : Token} {ts : List Token} (hcomma : t ≠ .comma) (hopen : t ≠ .lparen)
      (hclose : t ≠ .rparen) (hends : first = false → endsDefault t = false)
      (h : DefaultText false ts) : DefaultText first (t :: ts)
  | group {first : Bool} {inner ts : List Token} (hinner : Balanced inner)
      (h : DefaultText false ts) : DefaultText first (.lparen :: (inner ++ .rparen :: ts))

/-- Balanced tokens inside a parenthesis are part of a default. -/
theorem spanDefault_balanced (h : Balanced ts) (depth : Nat) (rest : List Token) :
    spanDefault (depth + 1) false (ts ++ rest) =
      (ts ++ (spanDefault (depth + 1) false rest).1, (spanDefault (depth + 1) false rest).2) := by
  induction h generalizing depth rest with
  | nil => rfl
  | @token t ts hopen hclose _ ih =>
    have hopen' : (t == .lparen) = false := by simpa using hopen
    have hclose' : (t == .rparen) = false := by simpa using hclose
    rw [List.cons_append, spanDefault]
    simp only [hopen', hclose', Bool.false_eq_true, if_false, ih, List.cons_append]
  | @group inner ts _ _ ihinner ih =>
    have hclosing : spanDefault (depth + 1 + 1) false (.rparen :: (ts ++ rest)) =
        (.rparen :: (spanDefault (depth + 1) false (ts ++ rest)).1,
          (spanDefault (depth + 1) false (ts ++ rest)).2) := rfl
    rw [List.cons_append, List.append_assoc, List.cons_append, spanDefault]
    simp only [beq_self_eq_true, if_true, ihinner, hclosing, ih, List.cons_append,
      List.append_assoc]

/-- A default ends before a clause, or with its element. -/
theorem spanDefault_text {first : Bool} (h : DefaultText first ts)
    (hτ : Closes τ ∨ endsDefault (front τ) = true) : spanDefault 0 first (ts ++ τ) = (ts, τ) := by
  -- an expression ends where it closes or at a word that ends defaults, outside brackets
  induction h with
  | nil => exact hτ.elim spanDefault_of_closes spanDefault_of_endsDefault
  | @token first t ts hcomma hopen hclose hends _ ih =>
    have hcomma' : (t == .comma) = false := by simpa using hcomma
    have hopen' : (t == .lparen) = false := by simpa using hopen
    have hclose' : (t == .rparen) = false := by simpa using hclose
    have hends' : (!first && endsDefault t) = false := by
      cases first with
      | true => rfl
      | false => exact hends rfl
    rw [List.cons_append, spanDefault]
    simp only [hcomma', hopen', hclose', hends', Bool.or_self, Bool.false_eq_true, if_false, ih]
  | @group first inner ts hinner _ ih =>
    have hclosing : spanDefault (0 + 1) false (.rparen :: (ts ++ τ)) =
        (.rparen :: (spanDefault 0 false (ts ++ τ)).1, (spanDefault 0 false (ts ++ τ)).2) := rfl
    have hinside := spanDefault_balanced hinner 0 (.rparen :: (ts ++ τ))
    rw [hclosing, ih] at hinside
    rw [List.cons_append, List.append_assoc, List.cons_append]
    change ((.lparen :: (spanDefault (0 + 1) false (inner ++ .rparen :: (ts ++ τ))).1,
      (spanDefault (0 + 1) false (inner ++ .rparen :: (ts ++ τ))).2) : List Token × List Token) = _
    rw [hinside]

/-- A default has a token. -/
theorem DefaultText.ne_nil (h : DefaultText true ts) : ts ≠ [] := by
  cases h <;> exact List.cons_ne_nil _ _

/-- A default is read from its tokens, in front of what ends it. -/
theorem defaultExpression_text (h : DefaultText true ts)
    (hτ : Closes τ ∨ endsDefault (front τ) = true) :
    defaultExpression (ts ++ τ) = .ok (render ts, τ) :=
  defaultExpression_eq_ok.2 ⟨ts, h.ne_nil, spanDefault_text h hτ, rfl⟩

-- ---------------------------------------------------------------------------
-- Types
-- ---------------------------------------------------------------------------

/-- A type ends where nothing goes on with it. -/
theorem typeSuffix_ends (w : WrittenType) (hparen : front rest ≠ .lparen)
    (hlayer : front rest ≠ .brackets) (hword : goesOnWithType (front rest) = false) :
    typeSuffix w rest = .ok (.done w, rest) := by
  cases rest with
  | nil => rfl
  | cons t more =>
    cases t with
    | lparen => exact absurd rfl hparen
    | brackets => exact absurd rfl hlayer
    | ident word =>
      change typeContinuations.contains (Text.toLower word) = false at hword
      change (if typeContinuations.contains (Text.toLower word) = true then _ else _ :
        Parser (ForInStep WrittenType)) _ = _
      rw [hword]
      rfl
    | _ => rfl

/-- Tokens that do not go on with a type. -/
structure StopsType (τ : List Token) : Prop where
  dot    : front τ ≠ .dot
  lparen : front τ ≠ .lparen
  layer  : front τ ≠ .brackets
  word   : goesOnWithType (front τ) = false

/-- A comma is an edge. -/
theorem edge_comma : Edge [.comma] [.comma] where
  some := Token.noConfusion
  fresh := rfl
  fresh' := rfl
  closes _ := .comma []
  default _ := .inl (.comma [])
  type _ := rfl
  word _ _ _ := rfl

/-- The name of a type ends in front of what stops a type. -/
theorem local_typePart_end (h : StopsType τ) (n : String) : Local [] τ True (typePart n) where
  suffix := by
    have hlocal : Local [.comma] [.comma] True (typePart n) :=
      .bind (local_accept_dot edge_comma) fun _ => .ite
        (fun _ => .bind (consumes_name edge_comma _).toLocal fun _ => .pure _) fun _ => .pure _
    exact hlocal.suffix
  moves := by
    intro before next left _ hrun
    rw [List.append_nil, List.append_nil] at hrun
    have hdone {ts : List Token} (hts : front ts ≠ .dot) : typePart n ts = .ok (.done n, ts) := by
      have hnone : accept (· == .dot) ts = .ok (false, ts) := by
        rw [accept_eq, if_neg (by simpa using hts)]
      rw [typePart, bind_of_ok hnone]
      rfl
    -- a dot asks for a name, and at the end of the tokens there is none
    by_cases hdot : front before = .dot
    · obtain ⟨more, rfl⟩ := cons_of_front hdot Token.noConfusion
      change (name "type name" >>= fun m => pure (.yield m) : Parser (ForInStep String)) more = _
        at hrun
      obtain ⟨m, left', hm, hrun⟩ := bind_eq_ok hrun
      cases hrun
      obtain ⟨hname, rfl⟩ := name_cases hm
      cases more with
      | nil => cases hname
      | cons t more =>
        change (name "type name" >>= fun m => pure (.yield m) : Parser (ForInStep String))
          (t :: (more ++ τ)) = _
        have hnamed : nameOf? t = some m := hname
        rw [bind_of_ok (name_eq_ok hnamed)]
        rfl
    -- without one the type's name ends, as it does before what stops the type
    · rw [hdone hdot] at hrun
      cases hrun
      refine hdone ?_
      cases before with
      | nil => exact h.dot
      | cons t more => exact hdot

theorem local_typeSuffix_end (h : StopsType τ) (w : WrittenType) :
    Local [] τ True (typeSuffix w) where
  suffix := (local_typeSuffix (Q := True) edge_comma w).suffix
  moves := by
    intro before next left _ hrun
    rw [List.append_nil, List.append_nil] at hrun
    -- what stops a type is no bracket, no layer and no word that goes on with it
    cases before with
    | nil =>
      cases hrun
      exact typeSuffix_ends w h.lparen h.layer h.word
    | cons t more =>
      cases t with
      | lparen =>
        have hopen (ts : List Token) : typeSuffix w (.lparen :: ts) =
            (do return .yield (w.withArguments (← (typeArguments : Parser TypeArguments))) :
              Parser (ForInStep WrittenType)) ts := rfl
        rw [hopen] at hrun
        obtain ⟨args, left', hargs, hrun⟩ := bind_eq_ok hrun
        cases hrun
        have hmoved : typeArguments (more ++ τ) = .ok (args, left ++ τ) :=
          typeArguments_moves (τ := []) (by simpa using hargs)
        rw [List.cons_append, hopen, bind_of_ok hmoved]
        -- a bracket that is closed before the end is closed there as well
        rfl
      | ident word =>
        change (if typeContinuations.contains (Text.toLower word) = true then _ else _ :
          Parser (ForInStep WrittenType)) _ = _ at hrun
        change (if typeContinuations.contains (Text.toLower word) = true then _ else _ :
          Parser (ForInStep WrittenType)) _ = _
        split at hrun <;> rename_i hword
        · cases hrun
          rw [if_pos hword]
          rfl
        · cases hrun
          rw [if_neg hword]
          rfl
      | _ =>
        cases hrun
        rfl

/-- **Types.** A type that is read to its end is read in the same way before what stops it. -/
theorem writtenType_append {column : String} {w : WrittenType}
    (hread : writtenType column ts = .ok (w, [])) (h : StopsType τ) :
    writtenType column (ts ++ τ) = .ok (w, τ) := by
  have hrest (first : String) : Local [] τ True (typeFrom first) :=
    .bind (.iterate (local_typePart_end h) _) fun last => .iterate (local_typeSuffix_end h) _
  have hmoves {first : String} {more : List Token} (hrun : typeFrom first more = .ok (w, [])) :
      typeFrom first (more ++ τ) = .ok (w, [] ++ τ) :=
    (hrest first).moves more (fun _ => trivial) (by simpa using hrun)
  cases ts with
  | nil => cases hread
  | cons t more =>
    cases t with
    | ident n | serial n => exact hmoves hread
    | _ => cases hread

/-- A type of several words. -/
def wordsType (first : String) (more : List String) : WrittenType where
  words := (first :: more).map Text.toLower
  text := more.foldl (fun text word => text ++ " " ++ word) first

/-- Words that go on with a type are read one after the other. -/
theorem comes_words (w : WrittenType) {more : List String}
    (hmore : ∀ word ∈ more, typeContinuations.contains (Text.toLower word) = true)
    (rest : List Token) : Comes typeSuffix w (more.map Token.ident ++ rest)
      { w with
        words := w.words ++ more.map Text.toLower
        text := more.foldl (fun text word => text ++ " " ++ word) w.text } rest := by
  induction more generalizing w with
  | nil =>
    simp only [List.map_nil, List.append_nil, List.foldl_nil]
    exact .refl _ _
  | cons word more ih =>
    -- each word goes on with the type, in lower case among the words and as written in the text
    have hround : typeSuffix w (.ident word :: (more.map Token.ident ++ rest)) =
        .ok (.yield { w with
          words := w.words ++ [Text.toLower word]
          text := w.text ++ " " ++ word }, more.map Token.ident ++ rest) := by
      change (if typeContinuations.contains (Text.toLower word) = true then _ else _ :
        Parser (ForInStep WrittenType)) _ = _
      rw [if_pos (hmore word List.mem_cons_self)]
      rfl
    have hbehind := ih { w with
      words := w.words ++ [Text.toLower word]
      text := w.text ++ " " ++ word } fun word' hword' => hmore word' (List.mem_cons_of_mem _ hword')
    rw [List.map_cons, List.map_cons, List.foldl_cons, List.cons_append]
    simp only [List.append_assoc, List.singleton_append] at hbehind
    exact .round hround (Nat.lt_succ_self _) hbehind

/-- **Words.** A word is a type, and so is one that others go on with. -/
theorem writtenType_words (column : String) {t : Token} {first : String} {more : List String}
    (ht : t = .ident first ∨ t = .serial first)
    (hmore : ∀ word ∈ more, typeContinuations.contains (Text.toLower word) = true) :
    writtenType column (t :: more.map Token.ident) = .ok (wordsType first more, []) := by
  have hpart : iterate typePart first (more.map Token.ident) = .ok (first, more.map Token.ident) := by
    rw [iterate]
    cases more <;> rfl
  have hsuffixes : iterate typeSuffix { words := [Text.toLower first], text := first }
      (more.map Token.ident) = .ok (wordsType first more, []) := by
    have hcomes := comes_words { words := [Text.toLower first], text := first } hmore []
    rw [List.append_nil] at hcomes
    rw [hcomes.iterate_eq, iterate]
    rfl
  have hread : typeFrom first (more.map Token.ident) = .ok (wordsType first more, []) := by
    rw [typeFrom, bind_of_ok hpart, hsuffixes]
  obtain rfl | rfl := ht
  · exact hread
  · exact hread

end CrudGen.Sql.Parser
