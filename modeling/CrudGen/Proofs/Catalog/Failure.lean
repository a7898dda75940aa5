import CrudGen.Proofs.Catalog.Notes

/-!
# Catalogs — statements that fail

A statement fails when it does not parse, when it declares a table again, or when its change does
not fit the catalog that the changes before it have made. `Fails` says so of a statement among
others, and `fails_iff` that these are the statements with an error.

A statement that fails adds one error, and what is made of the others is the same with it and
without it.

Main result:

* `ofStatements_drop_failing` — without a statement that fails the catalog and the references that
  lead nowhere are the same, and so are the errors but for its own.
-/

namespace CrudGen

open Sql (Dialect PendingForeignKey Statement TableChange Token)

-- ---------------------------------------------------------------------------
-- Statements that fail
-- ---------------------------------------------------------------------------

/-- The catalog that a statement among others finds in the second pass. -/
def catalogAtTurn (dialect : Dialect) (before : List (String × List Token))
    (s : String × List Token) (after : List (String × List Token)) : Catalog :=
  let whole := ({} : Draft).addAll dialect (numbered (before ++ s :: after))
  (whole.applyChanges (({} : Draft).addAll dialect (numbered before)).changes).catalog

/-- A statement among others, each an excerpt and its tokens, fails: it does not parse, it declares
a table that is there already, or its change does not fit the catalog at its turn. -/
inductive Fails (dialect : Dialect) (before : List (String × List Token))
    (s : String × List Token) (after : List (String × List Token)) : Prop
  | unreadable {e} (hparse : Statement.parse dialect s.2 = .error e)
  | duplicate {t} (hparse : Statement.parse dialect s.2 = .ok (.createTable t))
      (hasked : t.ifNotExists = false)
      (htable : ((({} : Draft).addAll dialect (numbered before)).catalog.table? t.table.name).isSome)
  | misfit {c m} (hparse : Statement.parse dialect s.2 = .ok (.change c))
      (happly : TableChange.apply (catalogAtTurn dialect before s after) c = .error m)

/-- A number once the statement of number `gap` is gone. -/
def closeUp (gap n : Nat) : Nat :=
  if n ≤ gap then n else n - 1

/-- Statements with their numbers, the first being `start + 1`. -/
def numberedFrom (start : Nat) (statements : List (String × List Token)) :
    List (Origin × List Token) :=
  statements.mapIdx fun i (excerpt, tokens) => ({ number := i + start + 1, excerpt }, tokens)

theorem numbered_append (before after : List (String × List Token)) :
    numbered (before ++ after) = numbered before ++ numberedFrom before.length after := by
  rw [numbered, List.mapIdx_append]
  rfl

theorem numberedFrom_cons (start : Nat) (s : String × List Token)
    (rest : List (String × List Token)) :
    numberedFrom start (s :: rest) =
      ({ number := start + 1, excerpt := s.1 }, s.2) :: numberedFrom (start + 1) rest := by
  rw [numberedFrom, List.mapIdx_cons, numberedFrom]
  simp [Nat.add_comm, Nat.add_left_comm]

/-- Without a statement the later ones move up by one. -/
theorem numbered_closeUp (before after : List (String × List Token)) :
    (numbered before ++ numberedFrom (before.length + 1) after).map
        (fun (o, tokens) => (o.renumber (closeUp (before.length + 1)), tokens)) =
      numbered (before ++ after) := by
  rw [List.map_append, numbered_append]
  congr 1
  · refine List.ext_getElem (by simp) fun i hi _ => ?_
    have hlt : i < before.length := by simpa [numbered] using hi
    have hkept : closeUp (before.length + 1) (i + 1) = i + 1 := if_pos (by omega)
    simp [numbered, Origin.renumber, hkept]
  · refine List.ext_getElem (by simp [numberedFrom]) fun i hi _ => ?_
    have hmoved : closeUp (before.length + 1) (i + (before.length + 1) + 1) =
        i + before.length + 1 := if_neg (by omega)
    simp [numberedFrom, Origin.renumber, hmoved]

/-- A statement that fails adds one error, and nothing else. -/
theorem Fails.oneMore {dialect : Dialect} {before after : List (String × List Token)}
    {s : String × List Token} (h : Fails dialect before s after) :
    let o : Origin := { number := before.length + 1, excerpt := s.1 }
    let first := ({} : Draft).addAll dialect (numbered before)
    let rest := numberedFrom (before.length + 1) after
    let without := first.addAll dialect rest
    let whole := first.addAll dialect ((o, s.2) :: rest)
    ∃ reason, Draft.OneMore (o.error reason) (without.applyChanges without.changes)
      (whole.applyChanges whole.changes) := by
  intro o first rest without whole
  -- a statement that is an error at once leaves the draft as it was
  have hatOnce {reason : String}
      (hadd : first.addTokens dialect o s.2 = first.addError (o.error reason)) :
      Draft.OneMore (o.error reason) (without.applyChanges without.changes)
        (whole.applyChanges whole.changes) := by
    obtain ⟨hone, hchanges⟩ := Draft.oneMore_of_addError hadd rest
    have hwhole : whole.changes = without.changes := hchanges
    rw [hwhole]
    exact hone.applyChanges without.changes
  cases h with
  | @unreadable e hparse =>
    refine ⟨e.message, hatOnce ?_⟩
    rw [Draft.addTokens, hparse]
  | @duplicate t hparse hasked htable =>
    refine ⟨(Misfit.duplicateTable t.table.name).message, hatOnce ?_⟩
    rw [Draft.addTokens, hparse]
    change first.addTable o t = _
    rw [Draft.addTable, if_pos htable, hasked]
    rfl
  | @misfit c m hparse happly =>
    refine ⟨m.message, Draft.oneMore_of_misfit hparse ?_⟩
    -- a change is tried when all statements are there, so the error comes later
    have hsplit : ({} : Draft).addAll dialect (numbered (before ++ s :: after)) =
        first.addAll dialect ((o, s.2) :: rest) := by
      rw [numbered_append, numberedFrom_cons]
      exact List.foldl_append
    rw [catalogAtTurn, hsplit] at happly
    exact happly

/-- What is made of a script with a statement that fails, and of the other statements. -/
theorem Fails.oneError {dialect : Dialect} {before after : List (String × List Token)}
    {s : String × List Token} (h : Fails dialect before s after) :
    let others := Extraction.ofStatements dialect
      (numbered before ++ numberedFrom (before.length + 1) after)
    ∃ reason earlier later, others.errors = earlier ++ later ∧
      Extraction.ofStatements dialect (numbered (before ++ s :: after)) =
        { others with errors := earlier ++ ⟨before.length + 1, s.1, reason⟩ :: later } := by
  intro others
  obtain ⟨reason, hone⟩ := h.oneMore
  obtain ⟨earlier, later, herrors, hclose⟩ := hone.close
  -- the statements are read first, then the changes are applied and references followed
  have hrun (rest : List (Origin × List Token)) :
      Extraction.ofStatements dialect (numbered before ++ rest) =
        ((({} : Draft).addAll dialect (numbered before)).addAll dialect rest).finish := by
    rw [Extraction.ofStatements, Draft.addAll, List.foldl_append]
    rfl
  have hothers := hrun (numberedFrom (before.length + 1) after)
  rw [Draft.finish_eq_close] at hothers
  refine ⟨reason, earlier, later, ?_, ?_⟩
  · rw [← herrors, ← hothers]
  · rw [numbered_append, numberedFrom_cons, hrun, Draft.finish_eq_close, hclose, ← hothers]
    rfl

/-- The numbers of errors are numbers of statements, each used once at most. -/
theorem statement_errors_subperm (dialect : Dialect) (statements : List (Origin × List Token)) :
    ((Extraction.ofStatements dialect statements).errors.map (·.statement)).Subperm
      (statements.map (·.1.number)) := by
  obtain ⟨errors, changes, hadd, hnumbers⟩ := Draft.notes_addAll {} dialect statements
  obtain ⟨herrors, hchanges⟩ := hadd.self
  let d := ({} : Draft).addAll dialect statements
  obtain ⟨errors', happly, hlate⟩ := Draft.notes_applyChanges d d.changes
  rw [Extraction.ofStatements, Draft.finish_eq_close, Draft.close_errors, happly.self.1,
    List.map_append]
  have hd : d.errors = errors ∧ d.changes = changes := ⟨herrors, hchanges⟩
  rw [hd.2] at hlate
  rw [hd.1]
  exact ((List.Subperm.refl _).append hlate.subperm).trans hnumbers

theorem numbered_nodup (statements : List (String × List Token)) :
    ((numbered statements).map (·.1.number)).Nodup := by
  refine List.pairwise_iff_getElem.2 fun i j hi hj hij => ?_
  simp only [numbered, List.getElem_map, List.getElem_mapIdx]
  omega

theorem mem_numbered {statements : List (String × List Token)} {n : Nat}
    (h : n ∈ (numbered statements).map (·.1.number)) : n ≤ statements.length := by
  obtain ⟨i, hi, rfl⟩ := List.getElem_of_mem h
  simp only [numbered, List.length_map, List.length_mapIdx] at hi
  simp only [numbered, List.getElem_map, List.getElem_mapIdx]
  omega

theorem mem_numberedFrom {start : Nat} {statements : List (String × List Token)} {n : Nat}
    (h : n ∈ (numberedFrom start statements).map (·.1.number)) : start < n := by
  obtain ⟨i, hi, rfl⟩ := List.getElem_of_mem h
  simp only [numberedFrom, List.getElem_map, List.getElem_mapIdx]
  omega

/-- An error under the number of a statement is an error of that statement. -/
theorem Fails.of_error {dialect : Dialect} {before after : List (String × List Token)}
    {s : String × List Token} {e : StatementError}
    (he : e ∈ (Extraction.ofStatements dialect (numbered (before ++ s :: after))).errors)
    (hnumber : e.statement = before.length + 1) : Fails dialect before s after := by
  let n := before.length + 1
  let o : Origin := { number := n, excerpt := s.1 }
  let first := ({} : Draft).addAll dialect (numbered before)
  let second := first.addTokens dialect o s.2
  let rest := numberedFrom n after
  let whole := second.addAll dialect rest
  have hwhole : ({} : Draft).addAll dialect (numbered (before ++ s :: after)) = whole := by
    rw [numbered_append, numberedFrom_cons]
    exact List.foldl_append
  rw [Extraction.ofStatements, hwhole, Draft.finish_eq_close, Draft.close_errors] at he
  -- the statements before have smaller numbers, those after have larger ones
  have hbefore : n ∉ (numbered before).map (·.1.number) := by
    intro hmem
    have hle : n ≤ before.length := mem_numbered hmem
    omega
  have hafter : n ∉ rest.map (·.1.number) := fun hmem => Nat.lt_irrefl n (mem_numberedFrom hmem)
  have hempty : ({} : Draft).Clear n := fun e he => absurd he List.not_mem_nil
  obtain ⟨hfirst, changes, hfirstChanges, hchanges⟩ := hempty.addAll dialect hbefore
  rw [← List.nil_append changes, ← hfirstChanges] at hchanges
  -- so there is no error under it if the statement notes nothing
  have hquiet (hsecond : second.errors = first.errors ∧ second.changes = first.changes) :
      Fails dialect before s after := by
    have hclear : second.Clear n := fun e he => hfirst e (hsecond.1 ▸ he)
    exact absurd hnumber (hclear.run (hsecond.2 ▸ hchanges) dialect hafter e he)
  cases hparse : Statement.parse dialect s.2 with
  | error e' => exact .unreadable hparse
  | ok statement =>
    have hsecond : second = first.add o statement := by
      simp only [second, Draft.addTokens, hparse]
    cases statement with
    | createTable t =>
      by_cases htable : (first.catalog.table? t.table.name).isSome
      · cases hasked : t.ifNotExists with
        | false => exact .duplicate hparse hasked htable
        | true =>
          refine hquiet ?_
          rw [hsecond, Draft.add, Draft.addTable, if_pos htable, if_pos hasked]
          exact ⟨rfl, rfl⟩
      · refine hquiet ?_
        rw [hsecond, Draft.add, Draft.addTable, if_neg htable]
        exact ⟨rfl, rfl⟩
    | createSequence q => exact hquiet (hsecond ▸ ⟨rfl, rfl⟩)
    | createEnum q => exact hquiet (hsecond ▸ ⟨rfl, rfl⟩)
    | skipped => exact hquiet (hsecond ▸ ⟨rfl, rfl⟩)
    | change c =>
      cases happly : TableChange.apply (whole.applyChanges first.changes).catalog c with
      | error m =>
        refine .misfit (m := m) hparse ?_
        rw [catalogAtTurn, hwhole]
        exact happly
      | ok r =>
        have hwhole' : whole = (first.add o (.change c)).addAll dialect rest := by
          rw [← hsecond]
        rw [hwhole'] at happly he
        have hclear := Draft.Clear.run_change (o := o) hfirst hchanges hafter ⟨r, happly⟩
        exact absurd hnumber (hclear e he)

/-- The statements that fail are those with an error. -/
theorem fails_iff {dialect : Dialect} {before after : List (String × List Token)}
    {s : String × List Token} :
    Fails dialect before s after ↔
      ∃ e ∈ (Extraction.ofStatements dialect (numbered (before ++ s :: after))).errors,
        e.statement = before.length + 1 := by
  constructor
  · intro h
    obtain ⟨reason, earlier, later, -, hwhole⟩ := h.oneError
    refine ⟨⟨before.length + 1, s.1, reason⟩, ?_, rfl⟩
    rw [hwhole]
    exact List.mem_append_right _ List.mem_cons_self
  · rintro ⟨e, he, hnumber⟩
    exact .of_error he hnumber

/-- **Failures.** A statement that fails leaves no trace but its error: without it the catalog and
the references that lead nowhere are the same, and the errors are those of the other statements,
whose numbers move up. No statement has two errors, and one that does not fail has none. -/
theorem ofStatements_drop_failing (dialect : Dialect) :
    (∀ statements : List (String × List Token),
      ((Extraction.ofStatements dialect (numbered statements)).errors.map (·.statement)).Nodup) ∧
    ∀ before s after,
      let whole := Extraction.ofStatements dialect (numbered (before ++ s :: after))
      let without := Extraction.ofStatements dialect (numbered (before ++ after))
      (Fails dialect before s after ↔ ∃ e ∈ whole.errors, e.statement = before.length + 1) ∧
      (Fails dialect before s after →
        without.catalog = whole.catalog ∧ without.unresolved = whole.unresolved ∧
          ∃ e earlier later, whole.errors = earlier ++ e :: later ∧
            e.statement = before.length + 1 ∧ e.excerpt = s.1 ∧
            without.errors =
              (earlier ++ later).map (·.renumber (closeUp (before.length + 1)))) := by
  refine ⟨fun statements => ?_, fun before s after => ⟨fails_iff, fun h => ?_⟩⟩
  · obtain ⟨numbers, hperm, hsublist⟩ := statement_errors_subperm dialect (numbered statements)
    -- each statement notes one thing at most, so no number stands twice
    exact hperm.nodup_iff.1 ((numbered_nodup statements).sublist hsublist)
  · obtain ⟨reason, earlier, later, herrors, hwhole⟩ := h.oneError
    have hwithout := ofStatements_renumber (closeUp (before.length + 1)) dialect
      (numbered before ++ numberedFrom (before.length + 1) after)
    rw [numbered_closeUp, herrors] at hwithout
    refine ⟨?_, ?_, _, earlier, later, congrArg Extraction.errors hwhole, rfl, rfl,
      congrArg Extraction.errors hwithout⟩
    · exact (congrArg Extraction.catalog hwithout).trans (congrArg Extraction.catalog hwhole).symm
    · exact (congrArg Extraction.unresolved hwithout).trans
        (congrArg Extraction.unresolved hwhole).symm

theorem ofStatements_drop_failing_of_staged :
    let before := [statementOf "CREATE TABLE a (x INT)"]
    let s := statementOf "ALTER TABLE a ADD y INT, ADD UNIQUE (z)"
    let after := [statementOf "CREATE INDEX i ON a (x)"]
    Fails .generic before s after ∧
      (Extraction.ofStatements .generic (numbered (before ++ after))).catalog =
        (Extraction.ofStatements .generic (numbered (before ++ s :: after))).catalog := by
  intro before s after
  have hfails : Fails .generic before s after := by
    let y : Column := { name := "y", declaredType := "INT", dataType := .integer }
    refine .misfit (m := .unknownColumn "z" "UNIQUE") (c := .alter "a" [
      .addColumn { column := y, foreignKey := none, inlineEnum := none },
      .addUnique { name := none, columns := ["z"] }]) ?_ ?_
    · decide +kernel
    · decide +kernel
  exact ⟨hfails, (((ofStatements_drop_failing .generic).2 before s after).2 hfails).1⟩

end CrudGen
