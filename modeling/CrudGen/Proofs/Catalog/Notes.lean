import Mathlib.Data.List.Perm.Subperm
import CrudGen.Catalog.Build

/-!
# Catalogs — what the passes note

Both passes read a draft's tables and references only, and add to its errors and changes at the end
(`Draft.Notes`). So a draft with one more error ends as the other does, but for that error
(`Draft.OneMore`), and the numbers of the statements are seen in the errors only.

Main results:

* `Draft.notes_addAll`, `Draft.notes_applyChanges` — what the two passes note, and under which
  numbers.
* `Draft.Clear.run`, `Draft.Clear.run_change` — a number that stays without an error.
* `Draft.oneMore_of_addError`, `Draft.oneMore_of_misfit` — a statement that fails, at once or at its
  turn, adds one error.
* `ofStatements_renumber` — numbers matter to errors only.
-/

namespace CrudGen

open Sql (Dialect PendingForeignKey Statement TableChange Token)

-- ---------------------------------------------------------------------------
-- What a pass notes
-- ---------------------------------------------------------------------------

namespace Draft

/-- A draft with other errors and other changes put aside. -/
def withLog (d : Draft) (errors : List StatementError) (changes : List (Origin × TableChange)) :
    Draft :=
  { d with errors, changes }

/-- A function notes errors and changes whatever is noted already, and reads none of it. -/
def Notes (f : Draft → Draft) (d : Draft) (errors : List StatementError)
    (changes : List (Origin × TableChange)) : Prop :=
  ∀ es cs, f (d.withLog es cs) = (f d).withLog (es ++ errors) (cs ++ changes)

variable {f g : Draft → Draft} {d : Draft} {errors errors' : List StatementError}
  {changes changes' : List (Origin × TableChange)}

/-- What is noted stands behind what was noted before. -/
theorem Notes.self (h : Notes f d errors changes) :
    (f d).errors = d.errors ++ errors ∧ (f d).changes = d.changes ++ changes := by
  have hself : f d = (f d).withLog (d.errors ++ errors) (d.changes ++ changes) :=
    h d.errors d.changes
  exact ⟨congrArg Draft.errors hself, congrArg Draft.changes hself⟩

/-- Two steps note what the first notes, and behind it what the second notes. -/
theorem Notes.comp (hf : Notes f d errors changes) (hg : Notes g (f d) errors' changes') :
    Notes (fun d => g (f d)) d (errors ++ errors') (changes ++ changes') := by
  intro es cs
  dsimp only
  rw [hf es cs, hg, List.append_assoc, List.append_assoc]

/-- A statement notes one error or one change at most, under its own number. -/
theorem notes_addTokens (d : Draft) (dialect : Dialect) (o : Origin) (tokens : List Token) :
    ∃ errors changes, Notes (·.addTokens dialect o tokens) d errors changes ∧
      (errors.map (·.statement) ++ changes.map (·.1.number)).Sublist [o.number] := by
  unfold addTokens
  split
  · rename_i s hs
    cases s with
    | createTable t =>
      -- a table that is there is an error, unless the statement says that it may be
      by_cases htable : (d.catalog.table? t.table.name).isSome
      · by_cases hif : t.ifNotExists
        · refine ⟨[], [], fun es cs => ?_, by simp⟩
          simp [add, addTable, withLog, htable, hif]
        · refine ⟨[o.error (Misfit.duplicateTable t.table.name).message], [], fun es cs => ?_,
            by simp [Origin.error]⟩
          simp [add, addTable, addError, withLog, htable, hif]
      · refine ⟨[], [], fun es cs => ?_, by simp⟩
        simp [add, addTable, withLog, htable]
    -- a change is kept for later, and is no error yet
    | change c => exact ⟨[], [(o, c)], fun es cs => by simp [add, withLog], by simp⟩
    | createSequence s => exact ⟨[], [], fun es cs => by simp [add, withLog], by simp⟩
    | createEnum e => exact ⟨[], [], fun es cs => by simp [add, withLog], by simp⟩
    | skipped => exact ⟨[], [], fun es cs => by simp [add, withLog], by simp⟩
  · rename_i e he
    exact ⟨[o.error e.message], [], fun es cs => by simp [addError, withLog],
      by simp [Origin.error]⟩

/-- Statements note at most one thing each: an error or a change. -/
theorem notes_addAll (d : Draft) (dialect : Dialect) (statements : List (Origin × List Token)) :
    ∃ errors changes, Notes (·.addAll dialect statements) d errors changes ∧
      (errors.map (·.statement) ++ changes.map (·.1.number)).Subperm
        (statements.map (·.1.number)) := by
  induction statements generalizing d with
  | nil => exact ⟨[], [], fun es cs => by simp [addAll], List.Subperm.refl _⟩
  | cons s rest ih =>
    obtain ⟨errors, changes, hfirst, hone⟩ := notes_addTokens d dialect s.1 s.2
    obtain ⟨errors', changes', hrest, hnumbers⟩ := ih (d.addTokens dialect s.1 s.2)
    refine ⟨errors ++ errors', changes ++ changes', hfirst.comp hrest, ?_⟩
    have hboth := hone.subperm.append hnumbers
    refine (List.Perm.subperm ?_).trans hboth
    simp only [List.map_append, List.append_assoc]
    exact (List.perm_append_comm_assoc _ _ _).append_left _

/-- A change notes at most one error, with its own number. -/
theorem notes_applyChange (d : Draft) (o : Origin) (c : TableChange) :
    ∃ errors, Notes (·.applyChange o c) d errors [] ∧
      (errors.map (·.statement)).Sublist [o.number] := by
  cases happly : CrudGen.TableChange.apply d.catalog c with
  | ok r => exact ⟨[], fun es cs => by simp [applyChange, withLog, happly], by simp⟩
  | error m =>
    exact ⟨[o.error m.message], fun es cs => by simp [applyChange, addError, withLog, happly],
      by simp [Origin.error]⟩

theorem notes_applyChanges (d : Draft) (cs : List (Origin × TableChange)) :
    ∃ errors, Notes (·.applyChanges cs) d errors [] ∧
      (errors.map (·.statement)).Sublist (cs.map (·.1.number)) := by
  induction cs generalizing d with
  | nil => exact ⟨[], fun es cs => by simp [applyChanges], .slnil⟩
  | cons c rest ih =>
    obtain ⟨errors, hfirst, hone⟩ := notes_applyChange d c.1 c.2
    obtain ⟨errors', hrest, hnumbers⟩ := ih (d.applyChange c.1 c.2)
    refine ⟨errors ++ errors', hfirst.comp hrest, ?_⟩
    rw [List.map_append]
    exact hone.append hnumbers

/-- No error of the draft is under the number. -/
def Clear (n : Nat) (d : Draft) : Prop :=
  ∀ e ∈ d.errors, e.statement ≠ n

variable {n : Nat}

/-- A number that is in no note is still in none when others are noted. -/
theorem Clear.append (h : d.Clear n) {d' : Draft} (herrors : d'.errors = d.errors ++ errors)
    (hn : n ∉ errors.map (·.statement)) : d'.Clear n := by
  intro e he heq
  rw [herrors] at he
  rcases List.mem_append.1 he with hold | hnew
  · exact h e hold heq
  · exact hn (heq ▸ List.mem_map_of_mem hnew)

/-- Statements of other numbers note nothing under this one. -/
theorem Clear.addAll (h : d.Clear n) (dialect : Dialect) {statements : List (Origin × List Token)}
    (hn : n ∉ statements.map (·.1.number)) :
    (d.addAll dialect statements).Clear n ∧
      ∃ changes, (d.addAll dialect statements).changes = d.changes ++ changes ∧
        n ∉ changes.map (·.1.number) := by
  obtain ⟨errors, changes, hnotes, hnumbers⟩ := notes_addAll d dialect statements
  have hnone : n ∉ errors.map (·.statement) ++ changes.map (·.1.number) :=
    fun hmem => hn (hnumbers.subset hmem)
  rw [List.mem_append, not_or] at hnone
  exact ⟨h.append hnotes.self.1 hnone.1, changes, hnotes.self.2, hnone.2⟩

/-- A number that no change has is still in no note when they are made. -/
theorem Clear.applyChanges (h : d.Clear n) {cs : List (Origin × TableChange)}
    (hn : n ∉ cs.map (·.1.number)) : (d.applyChanges cs).Clear n := by
  obtain ⟨errors, hnotes, hnumbers⟩ := notes_applyChanges d cs
  exact h.append hnotes.self.1 fun hmem => hn (hnumbers.subset hmem)

/-- Changes in a row are those of one part and then those of the other. -/
theorem applyChanges_append (d : Draft) (cs cs' : List (Origin × TableChange)) :
    d.applyChanges (cs ++ cs') = (d.applyChanges cs).applyChanges cs' :=
  List.foldl_append

/-- A number stays clear through both passes over statements of other numbers, if no change of that
number waits. -/
theorem Clear.run (h : d.Clear n) (hchanges : n ∉ d.changes.map (·.1.number)) (dialect : Dialect)
    {statements : List (Origin × List Token)} (hn : n ∉ statements.map (·.1.number)) :
    ((d.addAll dialect statements).applyChanges (d.addAll dialect statements).changes).Clear n := by
  obtain ⟨hadded, changes, heq, hnew⟩ := h.addAll dialect hn
  refine hadded.applyChanges ?_
  rw [heq, List.map_append, List.mem_append]
  exact not_or.2 ⟨hchanges, hnew⟩

/-- It stays clear as well if one change of that number waits and applies at its turn. -/
theorem Clear.run_change {o : Origin} {c : TableChange} (h : d.Clear o.number)
    (hchanges : o.number ∉ d.changes.map (·.1.number)) {dialect : Dialect}
    {statements : List (Origin × List Token)} (hn : o.number ∉ statements.map (·.1.number)) :
    let whole := (d.add o (.change c)).addAll dialect statements
    (∃ r, CrudGen.TableChange.apply (whole.applyChanges d.changes).catalog c = .ok r) →
      (whole.applyChanges whole.changes).Clear o.number := by
  rintro whole ⟨r, happly⟩
  have hput : (d.add o (.change c)).Clear o.number := h
  obtain ⟨hadded, changes, heq, hnew⟩ := hput.addAll dialect hn
  -- the change is applied between those of the statements before and after
  have hturn : ((whole.applyChanges d.changes).applyChange o c).Clear o.number := by
    rw [applyChange, happly]
    exact hadded.applyChanges hchanges
  have hsplit : whole.changes = d.changes ++ (o, c) :: changes := by
    rw [heq, add]
    exact List.append_assoc ..
  rw [hsplit, applyChanges_append]
  exact hturn.applyChanges hnew

-- ---------------------------------------------------------------------------
-- One error more
-- ---------------------------------------------------------------------------

/-- What is left to do when the changes are applied. -/
def close (d : Draft) : Extraction :=
  followAll { catalog := d.catalog.withEnumColumns, errors := d.errors } d.pending

/-- The end of a script makes the changes that were put aside, and follows the references. -/
theorem finish_eq_close (d : Draft) : d.finish = (d.applyChanges d.changes).close :=
  rfl

/-- Errors that are there already do not matter to a reference that is followed. -/
theorem follow_errors (x : Extraction) (errors : List StatementError) (table : String)
    (fk : PendingForeignKey) :
    follow { x with errors } table fk = { follow x table fk with errors } := by
  cases hresolve : PendingForeignKey.resolve x.catalog fk <;> simp [follow, hresolve]

theorem followAll_errors (x : Extraction) (errors : List StatementError)
    (pending : List (String × PendingForeignKey)) :
    followAll { x with errors } pending = { followAll x pending with errors } := by
  induction pending generalizing x with
  | nil => rfl
  | cons ref rest ih =>
    change followAll (follow { x with errors } ref.1 ref.2) rest = _
    rw [follow_errors, ih]
    rfl

/-- What was noted does not matter to the closing of a draft. -/
theorem close_withLog (d : Draft) (errors : List StatementError)
    (changes : List (Origin × TableChange)) :
    (d.withLog errors changes).close = { d.close with errors } :=
  followAll_errors { catalog := d.catalog.withEnumColumns, errors := d.errors } errors d.pending

/-- Closing a draft notes no errors. -/
theorem close_errors (d : Draft) : d.close.errors = d.errors :=
  congrArg Extraction.errors (d.close_withLog d.errors d.changes)

/-- Two drafts agree but for one more error in the second, and for the changes put aside. -/
def OneMore (e : StatementError) (d d' : Draft) : Prop :=
  ∃ earlier later changes, d.errors = earlier ++ later ∧
    d' = d.withLog (earlier ++ e :: later) changes

/-- One more error stays one more error when changes are made. -/
theorem OneMore.applyChanges {e : StatementError} {d d' : Draft} (h : OneMore e d d')
    (cs : List (Origin × TableChange)) : OneMore e (d.applyChanges cs) (d'.applyChanges cs) := by
  obtain ⟨earlier, later, changes, herrors, rfl⟩ := h
  obtain ⟨errors, hnotes, -⟩ := notes_applyChanges d cs
  refine ⟨earlier, later ++ errors, changes ++ [], ?_, ?_⟩
  · rw [hnotes.self.1, herrors, List.append_assoc]
  · rw [← List.cons_append, ← List.append_assoc]
    exact hnotes _ _

theorem OneMore.close {e : StatementError} {d d' : Draft} (h : OneMore e d d') :
    ∃ earlier later, d.close.errors = earlier ++ later ∧
      d'.close = { d.close with errors := earlier ++ e :: later } := by
  obtain ⟨earlier, later, changes, herrors, rfl⟩ := h
  exact ⟨earlier, later, by rw [close_errors, herrors], close_withLog _ _ _⟩

/-- A statement that fails at once adds nothing but its error. -/
theorem oneMore_of_addError {d : Draft} {dialect : Dialect} {o : Origin} {tokens : List Token}
    {e : StatementError} (h : d.addTokens dialect o tokens = d.addError e)
    (after : List (Origin × List Token)) :
    OneMore e (d.addAll dialect after) (d.addAll dialect ((o, tokens) :: after)) ∧
      (d.addAll dialect ((o, tokens) :: after)).changes = (d.addAll dialect after).changes := by
  obtain ⟨errors, changes, hnotes, -⟩ := notes_addAll d dialect after
  have hwith : d.addAll dialect ((o, tokens) :: after) =
      (d.addAll dialect after).withLog (d.errors ++ [e] ++ errors) (d.changes ++ changes) := by
    change (d.addTokens dialect o tokens).addAll dialect after = _
    rw [h]
    exact hnotes (d.errors ++ [e]) d.changes
  refine ⟨⟨d.errors, errors, d.changes ++ changes, hnotes.self.1, ?_⟩, ?_⟩
  · rw [hwith, List.append_assoc]
    rfl
  · rw [hwith, hnotes.self.2]
    rfl

/-- A change that fails at its turn adds nothing but its error. -/
theorem oneMore_of_misfit {d : Draft} {dialect : Dialect} {o : Origin} {tokens : List Token}
    {c : TableChange} {m : Misfit} (hparse : Statement.parse dialect tokens = .ok (.change c))
    {after : List (Origin × List Token)}
    (happly : CrudGen.TableChange.apply
      ((d.addAll dialect ((o, tokens) :: after)).applyChanges d.changes).catalog c = .error m) :
    let without := d.addAll dialect after
    let whole := d.addAll dialect ((o, tokens) :: after)
    OneMore (o.error m.message) (without.applyChanges without.changes)
      (whole.applyChanges whole.changes) := by
  intro without whole
  obtain ⟨errors, changes, hnotes, -⟩ := notes_addAll d dialect after
  obtain ⟨herrors, hchanges⟩ := hnotes.self
  have hwhole : whole = without.withLog without.errors (d.changes ++ (o, c) :: changes) := by
    have hadd : d.addTokens dialect o tokens = d.withLog d.errors (d.changes ++ [(o, c)]) := by
      simp [addTokens, hparse, add, withLog]
    have hrun := hnotes d.errors (d.changes ++ [(o, c)])
    rw [List.append_assoc, List.singleton_append, ← herrors, ← hadd] at hrun
    exact hrun
  have hchangesWhole : whole.changes = d.changes ++ (o, c) :: changes := by
    rw [hwhole]
    rfl
  -- until the turn of the change the drafts differ in the changes put aside only
  obtain ⟨errors', hmid, -⟩ := notes_applyChanges without d.changes
  have hbefore : whole.applyChanges d.changes = (without.applyChanges d.changes).withLog
      (without.applyChanges d.changes).errors (d.changes ++ (o, c) :: changes) := by
    have hrun := hmid without.errors (d.changes ++ (o, c) :: changes)
    rw [List.append_nil, ← hwhole, ← hmid.self.1] at hrun
    exact hrun
  have hturn : OneMore (o.error m.message) (without.applyChanges d.changes)
      ((whole.applyChanges d.changes).applyChange o c) := by
    refine ⟨_, [], d.changes ++ (o, c) :: changes, (List.append_nil _).symm, ?_⟩
    rw [applyChange, happly, hbefore]
    rfl
  rw [hchanges, hchangesWhole, applyChanges_append, applyChanges_append]
  exact hturn.applyChanges changes

end Draft

-- ---------------------------------------------------------------------------
-- Other numbers
-- ---------------------------------------------------------------------------

/-- An error whose statement has another number. -/
def StatementError.renumber (f : Nat → Nat) (e : StatementError) : StatementError :=
  { e with statement := f e.statement }

/-- An origin with another number. -/
def Origin.renumber (f : Nat → Nat) (o : Origin) : Origin :=
  { o with number := f o.number }

/-- A draft whose statements have other numbers. -/
def Draft.renumber (f : Nat → Nat) (d : Draft) : Draft :=
  d.withLog (d.errors.map (·.renumber f)) (d.changes.map fun (o, c) => (o.renumber f, c))

variable (f : Nat → Nat)

/-- A statement is added in the same way under another number. -/
theorem addTokens_renumber (d : Draft) (dialect : Dialect) (o : Origin) (tokens : List Token) :
    (d.renumber f).addTokens dialect (o.renumber f) tokens =
      (d.addTokens dialect o tokens).renumber f := by
  unfold Draft.addTokens
  split
  · rename_i s hs
    cases s with
    | createTable t =>
      simp only [Draft.add, Draft.addTable]
      change (if (d.catalog.table? t.table.name).isSome then _ else _) = _
      split
      · split
        · rfl
        · simp [Draft.renumber, Draft.withLog, Draft.addError, StatementError.renumber,
            Origin.renumber, Origin.error]
      · rfl
    | change c => simp [Draft.add, Draft.renumber, Draft.withLog]
    | createSequence s => rfl
    | createEnum e => rfl
    | skipped => rfl
  · simp [Draft.renumber, Draft.withLog, Draft.addError, StatementError.renumber,
      Origin.renumber, Origin.error]

theorem addAll_renumber (d : Draft) (dialect : Dialect)
    (statements : List (Origin × List Token)) :
    (d.renumber f).addAll dialect (statements.map fun (o, tokens) => (o.renumber f, tokens)) =
      (d.addAll dialect statements).renumber f := by
  induction statements generalizing d with
  | nil => rfl
  | cons s rest ih =>
    change ((d.renumber f).addTokens dialect (s.1.renumber f) s.2).addAll dialect _ = _
    rw [addTokens_renumber, ih]
    rfl

/-- A change is made in the same way under another number. -/
theorem applyChange_renumber (d : Draft) (o : Origin) (c : TableChange) :
    (d.renumber f).applyChange (o.renumber f) c = (d.applyChange o c).renumber f := by
  cases happly : TableChange.apply d.catalog c <;>
    simp [Draft.applyChange, Draft.renumber, Draft.withLog, Draft.addError, happly,
      StatementError.renumber, Origin.renumber, Origin.error]

theorem applyChanges_renumber (d : Draft) (changes : List (Origin × TableChange)) :
    (d.renumber f).applyChanges (changes.map fun (o, c) => (o.renumber f, c)) =
      (d.applyChanges changes).renumber f := by
  induction changes generalizing d with
  | nil => rfl
  | cons c rest ih =>
    change ((d.renumber f).applyChange (c.1.renumber f) c.2).applyChanges _ = _
    rw [applyChange_renumber, ih]
    rfl

/-- Numbers matter to errors only. -/
theorem ofStatements_renumber (dialect : Dialect) (statements : List (Origin × List Token)) :
    Extraction.ofStatements dialect (statements.map fun (o, tokens) => (o.renumber f, tokens)) =
      { Extraction.ofStatements dialect statements with
        errors := (Extraction.ofStatements dialect statements).errors.map (·.renumber f) } := by
  let d := ({} : Draft).addAll dialect statements
  have hadd : ({} : Draft).addAll dialect (statements.map fun (o, tokens) =>
      (o.renumber f, tokens)) = d.renumber f :=
    addAll_renumber f {} dialect statements
  have happly : (d.renumber f).applyChanges (d.renumber f).changes =
      (d.applyChanges d.changes).renumber f :=
    applyChanges_renumber f d d.changes
  rw [Extraction.ofStatements, Extraction.ofStatements, hadd, Draft.finish_eq_close, happly,
    Draft.finish_eq_close, Draft.close_errors]
  exact Draft.close_withLog _ _ _

/-- A text as one statement, whose excerpt it is. -/
def statementOf (text : String) : String × List Token :=
  (text, ((Sql.Lexer.tokenize text).map (·.token)).dropLast)

end CrudGen
