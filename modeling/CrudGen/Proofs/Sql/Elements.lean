import CrudGen.Proofs.Catalog.Table
import CrudGen.Proofs.Sql.ClauseEdges
import CrudGen.Proofs.Sql.Entries
import CrudGen.Proofs.Text.Lower

/-!
# Parsers — edges of elements

The constraints of a table look for keywords and names in several places, and some of them look
more than one token ahead. `PlainEdge` is an `Edge` of two continuations that begin with no keyword,
such as two ends of an element, or two spellings of an identifier. Elements of a table, and parts of
an `ALTER TABLE`, are read in front of the one as in front of the other.

Main results:

* `plainEdge_of_closes`, `plainEdge_of_sameName` — what such continuations are.
* `local_tableElement`, `local_alterElement` — elements and parts do not see beyond them.
-/

namespace CrudGen.Sql.Parser

/-- Whether a token is an identifier. -/
def isIdent : Token → Bool
  | .ident _ => true
  | _ => false

/-- Two continuations that begin with no keyword, and with the same word if they begin with one. -/
structure PlainEdge (τ τ' : List Token) : Prop extends Edge τ τ' where
  keyword  : ∀ k, front τ ≠ .keyword k
  keyword' : ∀ k, front τ' ≠ .keyword k
  words    : ∀ w, isWord w (front τ') = isWord w (front τ)
  ident    : (∃ n, front τ = .ident n) ↔ ∃ n, front τ' = .ident n

variable {α β : Type} {p : Parser α} {f : α → Parser β} {τ τ' : List Token} {Q : Prop}

/-- A plain edge goes on with no reference. -/
theorem PlainEdge.reference (h : PlainEdge τ τ') : goesOnWithReference τ' = false := by
  have hon : (front τ' == .keyword .on) = false := by simpa using h.keyword' .on
  have hnot : (front τ' == .keyword .not) = false := by simpa using h.keyword' .not
  rw [goesOnWithReference, hon, hnot]
  rfl

/-- Two parsers in a row that read at least one token each. -/
theorem Eager.twice (hp : Eager p) (hf : ∀ a, Eager (f a)) {ts rest : List Token} {b : β}
    (h : (p >>= f) ts = .ok (b, rest)) : rest.length ≤ ts.length - 2 := by
  obtain ⟨a, left, ha, hb⟩ := bind_eq_ok h
  have := hp ha
  have := hf a hb
  omega

variable (h : PlainEdge τ τ')
include h

/-- A choice of keywords does not see a plain edge, which is none of them. -/
theorem local_accept_keyword {p : Token → Bool} (hp : ∀ t, p t = true → ∃ k, t = .keyword k) :
    Local τ τ' Q (accept p) := by
  refine local_accept h.toEdge fun _ => ?_
  cases hfront : p (front τ') with
  | true =>
    obtain ⟨k, hk⟩ := hp _ hfront
    exact absurd hk (h.keyword' k)
  | false => rfl

/-- The columns of an index end with their parenthesis. -/
theorem consumes_indexOf (indexName : Option String) : Consumes τ τ' Q (indexOf indexName) :=
  .after (local_accept_word h.toEdge (by decide +kernel)) fun _ => .ite
    (fun _ => .after (.discard (consumes_name h.toEdge _).toLocal) fun _ =>
      .before (consumes_columnList h.toEdge) fun _ => .pure _)
    fun _ => .before (consumes_columnList h.toEdge) fun _ => .pure _

theorem consumes_indexBody : Consumes τ τ' Q indexBody := by
  have hrest (indexName : Option String) : Consumes τ τ' Q (indexOf indexName) :=
    consumes_indexOf h indexName
  refine .look h.ne_nil fun t => ?_
  split
  · exact .ite (fun _ => hrest _) fun _ => .after (consumes_advance h.toEdge).toLocal fun _ => hrest _
  · exact hrest _

/-- A name that may be missing is not taken from the edge. -/
theorem local_identifier? : Local τ τ' Q identifier? := by
  refine .look h.ne_nil (fun t => ?_) ?_
  · split
    · exact (consumes_token h.toEdge _).toLocal
    · exact .pure _
  · cases hfront : front τ with
    | ident n => exact .inl (consumes_token (Q := Q) h.toEdge _).eager
    | _ =>
      have hnone : ∀ n, front τ' ≠ .ident n := fun n hn => by
        obtain ⟨m, hm⟩ := h.ident.2 ⟨n, hn⟩
        rw [hfront] at hm
        cases hm
      right
      cases hfront' : front τ' with
      | ident n => exact absurd hfront' (hnone n)
      | _ => rfl

/-- A constraint reads its first word at least. -/
theorem consumes_constraintFrom (constraint : Option String) (k : Keyword) :
    Consumes τ τ' Q (constraintFrom constraint (.keyword k)) := by
  have hunique (indexName : Option String) : Consumes τ τ' Q (uniqueOf (constraint.or indexName)) :=
    .before (consumes_columnList h.toEdge) fun _ => .bind (local_skipElement h.toEdge) fun _ =>
      .pure _
  have hnames : Local τ τ' Q (accept fun t => t == .keyword .key || t == .keyword .index) := by
    refine local_accept_keyword h fun t ht => ?_
    rw [Bool.or_eq_true, beq_iff_eq, beq_iff_eq] at ht
    exact ht.elim (fun ht => ⟨_, ht⟩) fun ht => ⟨_, ht⟩
  have hindex : Consumes τ τ' Q (do
      advance
      return .index (← indexBody) : Parser TableConstraint) :=
    .before (consumes_advance h.toEdge) fun _ => .bind (consumes_indexBody h).toLocal fun _ => .pure _
  cases k <;> simp only [constraintFrom]
  case primary =>
    exact .before (consumes_advance h.toEdge) fun _ =>
      .bind (consumes_expect h.toEdge _ _).toLocal fun _ =>
        .bind (consumes_columnList h.toEdge).toLocal fun _ => .pure _
  case unique =>
    -- behind `UNIQUE` a name may follow, told by the absence of a bracket on both edges
    refine .before (consumes_advance h.toEdge) fun _ => .bind (.discard hnames) fun _ =>
      (Consumes.second h.ne_nil (fun t => .ite (fun _ => .after (local_identifier? h) hunique)
        fun _ => hunique _) ?_).toLocal
    have hparen : (front τ' == .lparen) = false := by simpa using h.ne_lparen.2
    have hparen' : (front τ == .lparen) = false := by simpa using h.ne_lparen.1
    rw [hparen, hparen']
  case foreign =>
    exact .before (consumes_advance h.toEdge) fun _ =>
      .bind (consumes_expect h.toEdge _ _).toLocal fun _ => .bind (local_identifier? h) fun _ =>
        .bind (consumes_columnList h.toEdge).toLocal fun _ =>
          .bind (consumes_expect h.toEdge _ _).toLocal fun _ =>
            .bind (consumes_reference h.toEdge (fun _ => h.reference) _ _).toLocal fun _ => .pure _
  case check =>
    exact .before (consumes_advance h.toEdge) fun _ =>
      .bind (consumes_skipParenthesized h.toEdge).toLocal fun _ =>
        .bind (local_skipElement h.toEdge) fun _ => .pure _
  case index => exact hindex
  case key => exact hindex
  all_goals exact .refuse _

/-- A constraint does not see the edge, whatever its first token is. -/
theorem local_constraintFrom (constraint : Option String) (t : Token) :
    Local τ τ' Q (constraintFrom constraint t) := by
  by_cases ht : ∃ k, t = .keyword k
  · obtain ⟨k, rfl⟩ := ht
    exact (consumes_constraintFrom h constraint k).toLocal
  · rw [constraintFrom_word (not_exists.1 ht)]
    exact .ite (fun _ => .bind (local_skipElement h.toEdge) fun _ => .pure _) fun _ => .refuse _

theorem local_tableConstraint (constraint : Option String) :
    Local τ τ' Q (tableConstraint constraint) := by
  rw [tableConstraint]
  refine .look h.ne_nil (local_constraintFrom h constraint) (.inr ?_)
  -- neither continuation begins with a keyword
  rw [constraintFrom_word h.keyword, constraintFrom_word h.keyword', h.words]

omit h in
/-- Three tokens decide whether an index begins. -/
theorem beginsIndex_eq (ts : List Token) : beginsIndex ts = (front ts == Token.lparen ||
    (isIdent (front ts) && (isWord "USING" (ts[1]?.getD Token.eof) ||
      (ts[1]?.getD Token.eof == Token.lparen && isIdent (ts[2]?.getD Token.eof))))) := by
  -- none, one, two or more of the three tokens are there
  match ts with
  | [] => rfl
  | [t] => cases t <;> rfl
  | [t, u] =>
    cases t with
    | ident n => cases u <;> simp [beginsIndex, front, isIdent, isWord]
    | _ => rfl
  | t :: u :: v :: rest =>
    cases t with
    | ident n =>
      cases u with
      | lparen => cases v <;> rfl
      | ident m =>
        have hn : (Token.ident n == Token.lparen) = false := rfl
        have hm : (Token.ident m == Token.lparen) = false := rfl
        simp [beginsIndex, front, isIdent, isWord, hn, hm]
      | _ => rfl
    | _ => rfl

/-- Both continuations of a plain edge begin with an identifier, or neither does. -/
theorem PlainEdge.isIdent : isIdent (front τ') = isIdent (front τ) := by
  have hident := h.ident
  cases hfront : front τ <;> cases hfront' : front τ' <;> simp_all [Parser.isIdent]

/-- Whether an index begins is decided by the tokens before the edge, and by whether a name follows.
-/
theorem beginsIndex_moves (t : Token) (before : List Token) :
    beginsIndex (t :: before ++ τ') = beginsIndex (t :: before ++ τ) := by
  have hparen : (front τ' == .lparen) = false := by simpa using h.ne_lparen.2
  have hparen' : (front τ == .lparen) = false := by simpa using h.ne_lparen.1
  rw [beginsIndex_eq, beginsIndex_eq]
  match before with
  | [] =>
    have hsecond (σ : List Token) : (t :: [] ++ σ)[1]?.getD .eof = front σ := rfl
    rw [hsecond, hsecond, h.words, hparen, hparen']
    rfl
  | [u] =>
    have hthird (σ : List Token) : (t :: [u] ++ σ)[2]?.getD .eof = front σ := rfl
    rw [hthird, hthird, h.isIdent]
    rfl
  | u :: v :: before => rfl

/-- A column reads its name at least. -/
theorem consumes_columnEntry {dialect : Dialect} {table : String} :
    Consumes τ τ' Q (columnEntry dialect table) :=
  .before (consumes_column h.toEdge dialect table fun _ => h.reference) fun _ => .pure _

/-- Both an index and a column are more than one token. -/
theorem length_keyOrColumn {dialect : Dialect} {table : String} {ts rest : List Token} {e : Entry}
    (hrun : keyOrColumn dialect table ts = .ok (e, rest)) : rest.length ≤ ts.length - 2 := by
  change (ite _ _ _ : Parser Entry) ts = _ at hrun
  split at hrun
  · exact Eager.twice .advance (fun _ => (Consumes.before (consumes_indexBody (Q := True) h)
      fun _ => .pure _).eager) hrun
  · unfold columnEntry at hrun
    obtain ⟨c, left, hread, hmade⟩ := bind_eq_ok hrun
    cases hmade
    exact Eager.twice (consumes_name (Q := True) h.toEdge _).eager (fun n =>
      (Consumes.before (consumes_writtenType (Q := True) h.toEdge n) fun _ => .bind
        (.iterate (fun d => local_columnClause h.toEdge d fun _ => h.reference) _) fun _ =>
          .pure _).eager) hread

/-- The word `KEY` or `INDEX` begins an index or is a name, in front of either continuation. -/
theorem local_keyOrColumn (dialect : Dialect) (table : String) :
    Local τ τ' Q (keyOrColumn dialect table) := by
  have hindex : Local τ τ' Q (do
      advance
      return .constraint (.index (← indexBody)) : Parser Entry) :=
    .bind (consumes_advance h.toEdge).toLocal fun _ => .bind (consumes_indexBody h).toLocal fun _ =>
      .pure _
  have hcolumn : Local τ τ' Q (columnEntry dialect table) := (consumes_columnEntry h).toLocal
  have hpos := List.length_pos_iff.2 h.ne_nil
  refine ⟨fun ts e rest hrun => ?_, fun before e left hQ hrun => ?_⟩
  · change (ite _ _ _ : Parser Entry) ts = _ at hrun
    split at hrun
    · exact hindex.suffix hrun
    · exact hcolumn.suffix hrun
  · match before with
    -- the two tokens that are looked at stand before the edge, as an entry takes at least one
    | [] | [_] =>
      have hle := length_keyOrColumn h hrun
      simp only [List.nil_append, List.cons_append, List.length_cons, List.length_append] at hle
      omega
    | t :: u :: before =>
      change (ite (beginsIndex (u :: before ++ τ) = true) _ _ : Parser Entry)
        (t :: u :: before ++ τ) = _ at hrun
      change (ite (beginsIndex (u :: before ++ τ') = true) _ _ : Parser Entry)
        (t :: u :: before ++ τ') = _
      -- the look ahead sees the same on both edges
      rw [beginsIndex_moves h]
      split at hrun
      · rename_i hbegins
        rw [if_pos hbegins]
        exact hindex.moves (t :: u :: before) hQ hrun
      · rename_i hbegins
        rw [if_neg hbegins]
        exact hcolumn.moves (t :: u :: before) hQ hrun

/-- An element does not see the edge, whatever its first token is. -/
theorem local_entryFrom (dialect : Dialect) (table : String) (t : Token) :
    Local τ τ' Q (entryFrom dialect table t) := by
  have hconstraint (constraint : Option String) :
      Local τ τ' Q (do return .constraint (← tableConstraint constraint) : Parser Entry) :=
    .bind (local_tableConstraint h _) fun _ => .pure _
  unfold entryFrom
  split
  · exact .bind (consumes_advance h.toEdge).toLocal fun _ =>
      .bind (consumes_name h.toEdge _).toLocal fun _ => hconstraint _
  · exact hconstraint _
  · exact hconstraint _
  · exact hconstraint _
  · exact hconstraint _
  · exact local_keyOrColumn h dialect table
  · exact local_keyOrColumn h dialect table
  · exact .ite (fun _ => .bind (local_skipElement h.toEdge) fun _ => .pure _) fun _ =>
      (consumes_columnEntry h).toLocal

/-- Where no keyword comes next, an element begins with the same word in both continuations, or is a
column. -/
theorem entryFrom_front (dialect : Dialect) (table : String) :
    Eager (entryFrom dialect table (front τ)) ∨ ∃ n n', front τ = .ident n ∧ front τ' = .ident n' ∧
      entryFrom dialect table (.ident n') = entryFrom dialect table (.ident n) := by
  have hskip : isOneOf skippedElements (front τ') = isOneOf skippedElements (front τ) := by
    simp only [isOneOf, h.words]
  cases hfront : front τ with
  | keyword k => exact absurd hfront (h.keyword k)
  | ident n =>
    obtain ⟨n', hn'⟩ := h.ident.1 ⟨n, hfront⟩
    rw [hfront, hn'] at hskip
    exact .inr ⟨n, n', rfl, hn', by simp only [entryFrom, wordOrColumn, hskip]⟩
  | _ => exact .inl (consumes_columnEntry (Q := True) h).eager

theorem local_entry (dialect : Dialect) (table : String) :
    Local τ τ' Q (entry dialect table) := by
  refine .look h.ne_nil (local_entryFrom h dialect table) ?_
  obtain heager | ⟨n, n', hn, hn', heq⟩ := entryFrom_front h dialect table
  · exact .inl heager
  · exact .inr (by rw [hn, hn', heq])

theorem local_tableElement (dialect : Dialect) (table : String) (d : TableDraft) :
    Local τ τ' Q (tableElement dialect table d) := by
  have hentering (e : Entry) : Local τ τ' Q (entering d e) :=
    .bind (.lift _) fun _ => .pure _
  rw [tableElement_eq]
  -- an end, a comma or an entry, which looks at what follows as little as its parser does
  refine .look h.ne_nil (fun t => ?_) ?_
  · split
    · exact (consumes_token h.toEdge _).toLocal
    · exact .throw _
    · exact (consumes_token h.toEdge _).toLocal
    · exact .bind (local_entryFrom h dialect table _) hentering
  · obtain heager | ⟨n, n', hn, hn', heq⟩ := entryFrom_front h dialect table
    · left
      split
      · exact (consumes_token (Q := True) h.toEdge _).eager
      · exact .throw _
      · exact (consumes_token (Q := True) h.toEdge _).eager
      · exact .before heager hentering
    · right
      rw [hn, hn']
      dsimp only
      rw [heq]

omit h

-- ---------------------------------------------------------------------------
-- Names that are alike
-- ---------------------------------------------------------------------------

/-- Two spellings of one name are the same words. -/
theorem isWord_of_sameName {n n' : String} (h : Text.sameName n n' = true) (w : String) :
    isWord w (.ident n') = isWord w (.ident n) := by
  rw [isWord, isWord, Text.sameName, Text.sameName, beq_iff_eq.1 h]

/-- Two spellings of an identifier are alike to what stands before them. -/
theorem plainEdge_of_sameName {n n' : String} (hname : Text.sameName n n' = true)
    (rest : List Token) : PlainEdge (.ident n :: rest) (.ident n' :: rest) where
  some := Token.noConfusion
  fresh := rfl
  fresh' := rfl
  closes hcloses := hcloses.elim Token.noConfusion Token.noConfusion
  default hdefault := .inr ((isWord_of_sameName hname "GENERATED").trans hdefault)
  type htype := by
    change typeContinuations.contains (Text.toLower n') = false
    rw [← Text.toLower_of_sameName hname]
    exact htype
  word w _ hword := (isWord_of_sameName hname w).trans hword
  keyword _ := Token.noConfusion
  keyword' _ := Token.noConfusion
  words := isWord_of_sameName hname
  ident := ⟨fun _ => ⟨n', rfl⟩, fun _ => ⟨n, rfl⟩⟩

/-- The ends of elements are alike to what stands before them. -/
theorem plainEdge_of_closes {τ τ' : List Token} (hne : τ ≠ []) (hτ : Closes τ) (hτ' : Closes τ') :
    PlainEdge τ τ' := by
  have hfront {σ : List Token} (hσ : Closes σ) :
      front σ = .eof ∨ front σ = .comma ∨ front σ = .rparen := by
    cases σ with
    | nil => exact .inl rfl
    | cons t rest => exact .inr (hσ t rfl)
  have hτ₁ : front τ = .comma ∨ front τ = .rparen := by
    obtain ⟨t, rest, rfl⟩ := List.exists_cons_of_ne_nil hne
    exact hτ t rfl
  -- on either side the front is the end, a comma or a bracket, which goes on with nothing
  obtain ht | ht := hτ₁ <;> obtain ht' | ht' | ht' := hfront hτ'
  all_goals exact {
    some := by rw [ht]; exact Token.noConfusion
    fresh := by rw [ht]; rfl
    fresh' := by rw [ht']; rfl
    closes := fun _ => hτ'
    default := by rw [ht]; exact fun hdefault => absurd hdefault Bool.false_ne_true
    type := fun _ => by rw [ht']; rfl
    word := fun w _ _ => by rw [ht']; rfl
    keyword := by rw [ht]; exact fun _ => Token.noConfusion
    keyword' := by rw [ht']; exact fun _ => Token.noConfusion
    words := fun w => (congrArg (isWord w) ht').trans (congrArg (isWord w) ht).symm
    ident := by simp [ht, ht'] }

/-- An element that begins with a name reads it. -/
theorem length_fromElementEnd {ts : List Token} (hfront : ∃ n, front ts = .ident n) :
    (fromElementEnd 0 ts).length ≤ ts.length - 1 := by
  obtain ⟨n, hn⟩ := hfront
  obtain ⟨more, rfl⟩ := cons_of_front hn Token.noConfusion
  exact (fromElementEnd_suffix 0 more).length_le

/-- Words are written as identifiers. -/
theorem isWord_eq_true {w : String} {t : Token} (h : isWord w t = true) : ∃ n, t = .ident n := by
  cases t with
  | ident n => exact ⟨n, rfl⟩
  | _ => cases h

/-- Every constraint is read from one token at least. -/
theorem eager_tableConstraint (constraint : Option String) :
    Eager (tableConstraint constraint) := by
  have h : PlainEdge [.rparen] [.rparen] :=
    plainEdge_of_closes (List.cons_ne_nil _ _) (by simp [Closes]) (by simp [Closes])
  intro ts k rest hrun
  rw [tableConstraint] at hrun
  change constraintFrom constraint (front ts) ts = _ at hrun
  by_cases hkeyword : ∃ k, front ts = .keyword k
  · obtain ⟨k, hk⟩ := hkeyword
    rw [hk] at hrun
    exact (consumes_constraintFrom (Q := True) h constraint k).eager hrun
  · rw [constraintFrom_word (not_exists.1 hkeyword)] at hrun
    split at hrun
    · cases hrun
      exact length_fromElementEnd (isWord_eq_true ‹_›)
    · exact Eager.refuse _ hrun

/-- Every element is read from one token at least. -/
theorem eager_entry (dialect : Dialect) (table : String) : Eager (entry dialect table) := by
  have h : PlainEdge [.rparen] [.rparen] :=
    plainEdge_of_closes (List.cons_ne_nil _ _) (by simp [Closes]) (by simp [Closes])
  have hmake (k : TableConstraint) :
      Local [.rparen] [.rparen] True (pure (.constraint k) : Parser Entry) := .pure _
  have hcolumn : Eager (columnEntry dialect table) := (consumes_columnEntry (Q := True) h).eager
  have hword {t : Token} {ts rest : List Token} {e : Entry} (ht : front ts = t)
      (hrun : wordOrColumn dialect table t ts = .ok (e, rest)) : rest.length ≤ ts.length - 1 := by
    unfold wordOrColumn at hrun
    split at hrun
    · cases hrun
      obtain ⟨w, -, hw⟩ := List.any_eq_true.1 ‹isOneOf skippedElements t = true›
      exact length_fromElementEnd (isWord_eq_true (ht ▸ hw))
    · exact hcolumn hrun
  intro ts e rest hrun
  change entryFrom dialect table (front ts) ts = _ at hrun
  generalize ht : front ts = t at hrun
  unfold entryFrom at hrun
  -- each element takes a token beyond its first word, or else it is that word alone
  split at hrun
  · exact Eager.before (Q := True) .advance (fun _ => .bind
      (consumes_name h.toEdge _).toLocal fun _ => .bind (local_tableConstraint h _) hmake) hrun
  · exact Eager.before (eager_tableConstraint none) hmake hrun
  · exact Eager.before (eager_tableConstraint none) hmake hrun
  · exact Eager.before (eager_tableConstraint none) hmake hrun
  · exact Eager.before (eager_tableConstraint none) hmake hrun
  · have := length_keyOrColumn h hrun
    omega
  · have := length_keyOrColumn h hrun
    omega
  · exact hword ht hrun

section

variable {n n' : String} {rest : List Token} (hname : Text.sameName n n' = true)
include hname

/-- The words `IF EXISTS` do not take the name. -/
theorem local_skipIfExists : Local (.ident n :: rest) (.ident n' :: rest) Q skipIfExists := by
  have h := plainEdge_of_sameName hname rest
  have hkeyword (k : Keyword) :
      Local (.ident n :: rest) (.ident n' :: rest) Q (accept (· == .keyword k)) :=
    local_accept_keyword h fun t ht => ⟨k, beq_iff_eq.1 ht⟩
  exact .bind (hkeyword _) fun _ => .ite (fun _ => .bind (.discard (hkeyword _)) fun _ =>
    .bind (consumes_expect h.toEdge _ _).toLocal fun _ => .pure _) fun _ => .pure _

/-- What is added before the name is read without seeing it. -/
theorem local_addition (dialect : Dialect) (table : String) (constraint : Option String) :
    Local (.ident n :: rest) (.ident n' :: rest) Q (addition dialect table constraint) := by
  have h := plainEdge_of_sameName hname rest
  have hconstraint : Local (.ident n :: rest) (.ident n' :: rest) Q (do
      return TableConstraint.action? (← tableConstraint constraint)) :=
    .bind (local_tableConstraint h _) fun _ => .pure _
  have hindex : Local (.ident n :: rest) (.ident n' :: rest) Q (do
      advance
      return some (.addIndex (← indexBody)) : Parser (Option AlterAction)) :=
    .bind (consumes_advance h.toEdge).toLocal fun _ => .bind (consumes_indexBody h).toLocal fun _ =>
      .pure _
  -- the front is a word on both sides, which decides alike
  refine .look h.ne_nil (fun t => ?_) (.inr rfl)
  split
  · exact hconstraint
  · exact hconstraint
  · exact hconstraint
  · exact hconstraint
  · exact hindex
  · exact hindex
  · exact .bind (.discard (local_accept_word h.toEdge (by decide +kernel))) fun _ =>
      .bind (.discard (local_skipIfExists hname)) fun _ =>
        .bind (consumes_column h.toEdge dialect table fun _ => h.reference).toLocal fun _ => .pure _

theorem local_alterAdd (dialect : Dialect) (table : String) :
    Local (.ident n :: rest) (.ident n' :: rest) Q (alterAdd dialect table) := by
  have h := plainEdge_of_sameName hname rest
  have hrest (constraint : Option String) :
      Local (.ident n :: rest) (.ident n' :: rest) Q (addition dialect table constraint) :=
    local_addition hname dialect table constraint
  exact .bind (local_accept_keyword h fun t ht => ⟨.constraint, beq_iff_eq.1 ht⟩) fun _ => .ite
    (fun _ => .bind (.map (consumes_name h.toEdge _).toLocal _) fun _ => hrest _)
    fun _ => .bind (.pure _) fun _ => hrest _

theorem local_alterColumn :
    Local (.ident n :: rest) (.ident n' :: rest) Q alterColumn := by
  have h := plainEdge_of_sameName hname rest
  have hset : isWord "SET" (.ident n') = isWord "SET" (.ident n) := isWord_of_sameName hname _
  refine .bind (.discard (local_accept_word h.toEdge (by decide +kernel))) fun _ =>
    .bind (consumes_name h.toEdge _).toLocal fun target =>
      .lookTwo (fun t u => ?_) h.ne_nil (.inr fun _ => ?_) fun t => .inr ?_
  · exact .ite (fun _ => .bind (consumes_advance h.toEdge).toLocal fun _ =>
      .bind (consumes_advance h.toEdge).toLocal fun _ =>
        .bind (consumes_defaultExpression h.toEdge).toLocal fun _ => .pure _)
      fun _ => .bind (local_skipElement h.toEdge) fun _ => .pure _
  · change (if isWord "SET" (.ident n') && _ then _ else _ : Parser (Option AlterAction)) = _
    rw [hset]
    rfl
  · rfl

theorem local_alterElement (dialect : Dialect) (table : String) (actions : List AlterAction) :
    Local (.ident n :: rest) (.ident n' :: rest) Q (alterElement dialect table actions) := by
  have h := plainEdge_of_sameName hname rest
  refine .look h.ne_nil (fun t => ?_) (.inr rfl)
  split
  · exact .pure _
  · exact (consumes_token h.toEdge _).toLocal
  · exact (consumes_token h.toEdge _).toLocal
  · exact .bind (consumes_advance h.toEdge).toLocal fun _ =>
      .bind (local_alterAdd hname dialect table) fun _ => .pure _
  · exact .bind (consumes_advance h.toEdge).toLocal fun _ =>
      .bind (local_alterColumn hname) fun _ => .pure _
  · exact .bind (local_skipElement h.toEdge) fun _ => .pure _

end

end CrudGen.Sql.Parser
