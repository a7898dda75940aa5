import CrudGen.Proofs.Sql.WrittenClauses

/-!
# Columns — identity

No clause is about identity as a whole. Its words are skipped one by one up to `IDENTITY`, which
makes the column number itself, unless `DEFAULT` comes before: then the rest is the text of a default.

Main results:

* `autoIncrement_foldl`, `default_foldl` — what clauses in a row make of numbering and default.
* `column_identity` — what a column with an identity is, wherever that stands.
-/

namespace CrudGen.Sql.Parser

variable {dialect : Dialect} {table n : String} {τ : List Token}

-- ---------------------------------------------------------------------------
-- Numbering and default
-- ---------------------------------------------------------------------------

/-- Whether a clause makes its column number itself. -/
def Clause.counts : Clause → Bool
  | .counter => true
  | .default expression => drawsFromSequence expression
  | _ => false

theorem Clause.counts_iff {c : Clause} (h : ∀ e, c ≠ .default e) : c.counts = true ↔ c = .counter := by
  cases c with
  | counter => exact iff_of_true rfl rfl
  | default e => exact absurd rfl (h e)
  | _ => exact iff_of_false Bool.false_ne_true nofun

theorem autoIncrement_foldl (cs : List Clause) (d : ColumnDraft) :
    (cs.foldl Clause.apply d).column.autoIncrement =
      (d.column.autoIncrement || cs.any Clause.counts) := by
  induction cs generalizing d with
  | nil => exact (Bool.or_false _).symm
  | cons c cs ih =>
    have hfirst : (c.apply d).column.autoIncrement = (d.column.autoIncrement || c.counts) := by
      cases c with
      | counter => exact (Bool.or_true _).symm
      | default => rfl
      | _ => exact (Bool.or_false _).symm
    rw [List.foldl_cons, ih, hfirst, List.any_cons, Bool.or_assoc]

theorem autoIncrement_columnOf (w : WrittenType) (cs : List Clause) :
    (columnOf dialect table n w cs).column.autoIncrement =
      ((w.meaning dialect table n).autoIncrement || cs.any Clause.counts) :=
  autoIncrement_foldl cs (.start dialect table n w)

/-- Only a default says what the default is. -/
theorem default_foldl {cs : List Clause} (h : ∀ c ∈ cs, ∀ e, c ≠ .default e) (d : ColumnDraft) :
    (cs.foldl Clause.apply d).column.default = d.column.default := by
  induction cs generalizing d with
  | nil => rfl
  | cons c cs ih =>
    have hfirst : (c.apply d).column.default = d.column.default := by
      cases c with
      | default e => exact absurd rfl (h _ List.mem_cons_self e)
      | _ => rfl
    rw [List.foldl_cons, ih fun c' hc' => h c' (List.mem_cons_of_mem _ hc'), hfirst]

-- ---------------------------------------------------------------------------
-- Identities
-- ---------------------------------------------------------------------------

/-- When a column with an identity numbers itself. -/
inductive IdentityMode where
  | always | byDefault
  deriving DecidableEq, Repr, Inhabited

/-- How this is written. -/
inductive ModeText : IdentityMode → List Token → Prop
  | always {t : Token} (ht : isWord "ALWAYS" t = true) : ModeText .always [t]
  | byDefault {t : Token} (ht : isWord "BY" t = true) : ModeText .byDefault [t, .keyword .default]

/-- An identity as it is written. -/
structure IdentityText where
  mode : IdentityMode
  generated : Token
  words : List Token
  as : Token
  identity : Token
  options : List Token
  generated_word : isWord "GENERATED" generated = true
  mode_words : ModeText mode words
  as_word : isWord "AS" as = true
  identity_word : isWord "IDENTITY" identity = true
  options_text : OptionsText options

namespace IdentityText

/-- What stands behind the mode. -/
def ending (x : IdentityText) : List Token :=
  x.as :: x.identity :: x.options

def tokens (x : IdentityText) : List Token :=
  x.generated :: (x.words ++ x.ending)

/-- What the clause of an identity says. -/
def clause (x : IdentityText) : Clause :=
  match x.mode with
  | .always => .counter
  | .byDefault => .default (render x.ending)

/-- Behind `DEFAULT`, the rest of an identity is a default. -/
theorem defaultText_ending (x : IdentityText) : DefaultText true x.ending := by
  have hword {t : Token} {w : String} (ht : isWord w t = true)
      (hw : isWord "GENERATED" (.ident w) = false) {first : Bool} {ts : List Token}
      (h : DefaultText false ts) : DefaultText first (t :: ts) := by
    obtain ⟨s, rfl⟩ := isWord_eq_true ht
    exact .token Token.noConfusion Token.noConfusion Token.noConfusion
      (fun _ => (isWord_ident ht).trans hw) h
  have hoptions {ts : List Token} (h : OptionsText ts) : DefaultText false ts := by
    cases h with
    | absent => exact .nil
    | present h => exact .group h .nil
  exact hword x.as_word (by decide +kernel)
    (hword x.identity_word (by decide +kernel) (hoptions x.options_text))

theorem endsClause (x : IdentityText) (τ : List Token) : EndsClause (x.tokens ++ τ) :=
  .generated _ x.generated_word

/-- An identity is read as what it says, before every clause that is no default. -/
theorem reads (x : IdentityText) (hτ : EndsClause τ) (hdefault : front τ ≠ .keyword .default) :
    Says n (x.tokens ++ τ) x.clause τ := by
  have hdefaultOf : Says n (.keyword .default :: (x.ending ++ τ)) (.default (render x.ending)) τ :=
    ClauseText.reads (.default x.defaultText_ending) hτ fun _ => hdefault
  obtain ⟨mode, generated, words, as, identity, options, hgenerated, hwords, has, hidentity,
    hoptions⟩ := x
  cases hwords with
  | always halways =>
    exact (ClauseText.identity hgenerated halways has hidentity hoptions).reads hτ nofun
  | byDefault hby =>
    exact .behind_skipped (clauseOf_skipped hgenerated (by decide +kernel) _)
      (.behind_skipped (clauseOf_skipped hby (by decide +kernel) _) hdefaultOf)

end IdentityText

theorem WrittenClause.ne_default {c : WrittenClause n} (h : c.kind ≠ .default) (e : String) :
    c.clause ≠ .default e := fun hc =>
  h (c.written.kind_of_clause (hc ▸ rfl))

/-- A column with an identity is what its clauses say, its identity among them. -/
theorem column_with_identity {t : Token} (ht : nameOf? t = some n) {type : List Token}
    {w : WrittenType} (htype : writtenType n type = .ok (w, []))
    {before after : List (WrittenClause n)} (hbefore : ∀ c ∈ before, c.kind ≠ .default)
    (hafter : ∀ c ∈ after, c.kind ≠ .default) (x : IdentityText) (hτ : Closes τ) :
    column dialect table (t :: (type ++ (before.flatMap (·.tokens) ++ (x.tokens ++
        (after.flatMap (·.tokens) ++ τ))))) =
      .ok (columnOf dialect table n w
        (before.map (·.clause) ++ x.clause :: after.map (·.clause)), τ) := by
  have hone {clauses : List (WrittenClause n)} (h : ∀ c ∈ clauses, c.kind ≠ .default) :
      clauses.Pairwise fun c c' => c.kind = .default → c'.kind ≠ .default :=
    List.pairwise_of_forall_mem_list fun c hc _ _ hkind => absurd hkind (h c hc)
  have hbehind := x.endsClause (after.flatMap (·.tokens) ++ τ)
  have hfront := front_clauses hafter (hτ.ne_keyword .default)
  -- what comes before ends at the identity, which ends at what comes behind
  obtain ⟨cs₁, hcs₁, heffect₁⟩ := reads_clauses (hone hbefore) hbehind
    fun ⟨c, hc, hkind⟩ => absurd hkind (hbefore c hc)
  obtain ⟨cs₂, hcs₂, heffect₂⟩ := x.reads (endsClause_clauses after (.element hτ)) hfront
  obtain ⟨cs₃, hcs₃, heffect₃⟩ := reads_clauses (hone hafter) (.element hτ)
    fun _ => hτ.ne_keyword .default
  rw [column_of_clauses ht htype (endsClause_clauses before hbehind).stopsType
    (hcs₁.append (hcs₂.append hcs₃)) hτ]
  simp only [columnOf, List.foldl_append, List.foldl_cons, heffect₁, heffect₂, heffect₃]

/-- **Identity.** A column with an identity and no default numbers itself if its identity does so
always. One that does so by default has the rest of its words as its default instead, and numbers
itself only where its type or another clause asks for it. -/
theorem column_identity {t : Token} (ht : nameOf? t = some n) {type : List Token} {w : WrittenType}
    (htype : writtenType n type = .ok (w, [])) {before after : List (WrittenClause n)}
    (hbefore : ∀ c ∈ before, c.kind ≠ .default) (hafter : ∀ c ∈ after, c.kind ≠ .default)
    (x : IdentityText) (hτ : Closes τ) :
    ∃ c, column dialect table (t :: (type ++ (before.flatMap (·.tokens) ++ (x.tokens ++
        (after.flatMap (·.tokens) ++ τ))))) = .ok (c, τ) ∧
      (x.mode = .always → c.column.autoIncrement = true ∧ c.column.default = none) ∧
      (x.mode = .byDefault → c.column.default = some (render x.ending) ∧
        (c.column.autoIncrement = true ↔ (w.meaning dialect table n).autoIncrement = true ∨
          (∃ c ∈ before ++ after, c.clause = .counter) ∨
            drawsFromSequence (render x.ending) = true)) := by
  have hno {clauses : List (WrittenClause n)} (h : ∀ c ∈ clauses, c.kind ≠ .default) :
      ∀ c ∈ clauses.map (·.clause), ∀ e, c ≠ .default e := by
    intro c hc
    obtain ⟨c', hc', rfl⟩ := List.mem_map.1 hc
    exact WrittenClause.ne_default (h c' hc')
  have hcounts {clauses : List (WrittenClause n)} (h : ∀ c ∈ clauses, c.kind ≠ .default) :
      (clauses.map (·.clause)).any Clause.counts = true ↔ ∃ c ∈ clauses, c.clause = .counter := by
    rw [List.any_map, List.any_eq_true]
    exact exists_congr fun c => and_congr_right fun hc =>
      Clause.counts_iff (WrittenClause.ne_default (h c hc))
  refine ⟨_, column_with_identity ht htype hbefore hafter x hτ, fun hmode => ?_, fun hmode => ?_⟩
  -- `ALWAYS`: a counter, and no clause says a default
  · have hclause : x.clause = .counter := by rw [IdentityText.clause, hmode]
    have hsaid : ∀ c ∈ before.map (·.clause) ++ x.clause :: after.map (·.clause),
        ∀ e, c ≠ .default e := by
      rw [hclause]
      refine List.forall_mem_append.2 ⟨hno hbefore, List.forall_mem_cons.2 ⟨nofun, hno hafter⟩⟩
    refine ⟨?_, (default_foldl hsaid _).trans rfl⟩
    rw [autoIncrement_columnOf, hclause, List.any_append, List.any_cons]
    simp only [Clause.counts, Bool.true_or, Bool.or_true]
  -- `BY DEFAULT`: the ending is taken for an expression, the last default said
  · have hclause : x.clause = .default (render x.ending) := by rw [IdentityText.clause, hmode]
    refine ⟨?_, ?_⟩
    · rw [columnOf, List.foldl_append, List.foldl_cons, default_foldl (hno hafter), hclause]
      rfl
    -- it counts only if the type, another clause or the text of that default does
    · have hor : (∃ c ∈ before ++ after, c.clause = .counter) ↔
          (∃ c ∈ before, c.clause = .counter) ∨ ∃ c ∈ after, c.clause = .counter := by
        simp only [List.mem_append, or_and_right, exists_or]
      have hcounted : Clause.counts (.default (render x.ending)) =
        drawsFromSequence (render x.ending) := rfl
      rw [autoIncrement_columnOf, hclause, List.any_append, List.any_cons, hcounted, hor,
        ← hcounts hbefore, ← hcounts hafter]
      simp only [Bool.or_eq_true, or_assoc]
      exact or_congr_right (or_congr_right or_comm)

/-- An identity between two other clauses. -/
theorem column_identity_of_always :
    ∃ c, column .postgres "t" [.ident "id", .ident "BIGINT", .keyword .not, .keyword .null,
        .ident "GENERATED", .ident "ALWAYS", .ident "AS", .ident "IDENTITY", .lparen, .ident "START",
        .num "5", .rparen, .keyword .unique, .rparen] = .ok (c, [.rparen]) ∧
      c.column.autoIncrement = true ∧ c.column.default = none := by
  let required : WrittenClause "id" := ⟨.notNull, _, _, .notNull⟩
  let unique : WrittenClause "id" := ⟨.unique, _, _, .unique⟩
  -- the number in brackets is passed over
  have hoptions : Balanced [.ident "START", .num "5"] :=
    .token Token.noConfusion Token.noConfusion (.token Token.noConfusion Token.noConfusion .nil)
  have hword (w : String) : isWord w (.ident w) = true := sameName_self w
  let identity : IdentityText := ⟨.always, .ident "GENERATED", [.ident "ALWAYS"], .ident "AS",
    .ident "IDENTITY", group [.ident "START", .num "5"], hword _, .always (hword _), hword _, hword _,
    .present hoptions⟩
  have hname : nameOf? (.ident "id") = some "id" := rfl
  have hwords : ∀ word ∈ ([] : List String),
      typeContinuations.contains (Text.toLower word) = true := nofun
  have htype : writtenType "id" [.ident "BIGINT"] = .ok (wordsType "BIGINT" [], []) :=
    writtenType_words "id" (.inl rfl) hwords
  have hbefore : ∀ c ∈ [required], c.kind ≠ .default := by simp [required]
  have hafter : ∀ c ∈ [unique], c.kind ≠ .default := by simp [unique]
  obtain ⟨c, hc, hnumbered, -⟩ : ∃ c, column .postgres "t" _ = .ok (c, [.rparen]) ∧ _ :=
    column_identity hname htype hbefore hafter identity (.rparen [])
  exact ⟨c, hc, hnumbered rfl⟩

/-- A column that is to number itself by default does not, and has a default that is none. -/
theorem column_numbered_by_default :
    (column .generic "t" [.ident "id", .ident "INT", .ident "GENERATED", .ident "BY",
        .keyword .default, .ident "AS", .ident "IDENTITY"]).toOption.map
      (fun read => (read.1.column.autoIncrement, read.1.column.default, read.2)) =
        some (false, some "AS IDENTITY", []) := by
  decide +kernel

end CrudGen.Sql.Parser
