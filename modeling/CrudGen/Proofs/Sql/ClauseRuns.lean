import CrudGen.Proofs.Sql.Elements

/-!
# Columns — clauses in a row

A column is its name, its type and its clauses one behind the other. What a run of clauses says does
not depend on what follows it, unless the last of them is a reference that would go on.

Main results:

* `Clauses.iterate_eq`, `iterate_columnClause_iff` — a column is read clause after clause.
* `Clauses.moves` — clauses before one continuation are clauses before another.
-/

namespace CrudGen.Sql.Parser

variable {n : String} {ts left rest τ τ' : List Token} {cs cs' : List Clause}

/-- Clauses of column `n` that stand one behind the other in `ts`, before `rest`. -/
inductive Clauses (n : String) : List Token → List Clause → List Token → Prop
  | nil (ts : List Token) : Clauses n ts [] ts
  | cons {c : Clause} {cs : List Clause} {ts left rest : List Token}
      (hfirst : clauseOf n ts = .ok (some c, left)) (hmore : Clauses n left cs rest) :
      Clauses n ts (c :: cs) rest

/-- Every clause is read from one token at least. -/
theorem length_clauseOf {c : Clause} (h : clauseOf n ts = .ok (some c, rest)) :
    rest.length < ts.length := by
  have hedge := (plainEdge_of_closes (List.cons_ne_nil _ _) (.rparen []) (.rparen [])).toEdge
  change clauseFrom n (front ts) ts = _ at h
  by_cases ht : front ts ≠ .comma ∧ front ts ≠ .rparen ∧ front ts ≠ .eof
  · have hle := (consumes_clauseFrom (Q := True) hedge n ht fun _ _ => rfl).eager h
    cases ts with
    | nil => exact absurd rfl ht.2.2
    | cons t more =>
      rw [List.length_cons] at hle ⊢
      omega
  · rw [clauseFrom_none n ht] at h
    cases h

/-- Where no clause comes next, nothing is read. -/
theorem eq_of_clauseOf_none (h : clauseOf n ts = .ok (none, rest)) : rest = ts := by
  have hread : YieldsAt (clauseOf n) ts fun c? left => c? = none → left = ts := by
    refine .look fun t ht => ?_
    unfold clauseFrom
    split
    · exact .pure fun _ => rfl
    · exact .pure fun _ => rfl
    · exact .pure fun _ => rfl
    · exact .bind fun _ _ _ => .bind fun _ _ _ => .pure nofun
    · exact .bind fun _ _ _ => .pure nofun
    · exact .bind fun _ _ _ => .pure nofun
  exact hread _ _ h rfl

theorem Clause.name_foldl (cs : List Clause) (d : ColumnDraft) :
    (cs.foldl Clause.apply d).column.name = d.column.name := by
  induction cs generalizing d with
  | nil => rfl
  | cons c rest ih => exact (ih _).trans (congrArg Prod.fst (c.signature_change d.column))

namespace Clauses

theorem suffix (h : Clauses n ts cs rest) : rest <:+ ts := by
  have hedge := (plainEdge_of_closes (List.cons_ne_nil _ _) (.rparen []) (.rparen [])).toEdge
  induction h with
  | nil => exact List.suffix_rfl
  | cons hfirst _ ih =>
    exact ih.trans ((local_clauseOf (Q := True) hedge _ fun _ => rfl).suffix hfirst)

theorem append {left : List Token} (h : Clauses n ts cs left) (h' : Clauses n left cs' rest) :
    Clauses n ts (cs ++ cs') rest := by
  induction h with
  | nil => exact h'
  | cons hfirst _ ih => exact .cons hfirst (ih h')

/-- A reference only is read with a look at what stands behind the next clause. -/
theorem moves_last (hedge : Edge τ τ') {before : List Token} {c : Clause}
    (h : clauseOf n (before ++ τ) = .ok (some c, τ))
    (hlast : c.reference? = none ∨ goesOnWithReference τ' = false) :
    clauseOf n (before ++ τ') = .ok (some c, τ') := by
  cases before with
  | nil => exact absurd (length_clauseOf h) (Nat.lt_irrefl _)
  | cons t more =>
    change clauseFrom n t (t :: more ++ τ) = .ok (some c, [] ++ τ) at h
    change clauseFrom n t (t :: more ++ τ') = .ok (some c, [] ++ τ')
    obtain hnone | hstops := hlast
    · refine (local_clauseFrom (Q := True) hedge n t ?_).moves _ (fun _ => trivial) h
      rintro rfl
      obtain ⟨_, left, -, h⟩ := bind_eq_ok h
      obtain ⟨c', left', hc', h⟩ := bind_eq_ok h
      cases h
      obtain ⟨fk, left'', -, h⟩ := bind_eq_ok hc'
      cases h
      cases hnone
    · exact (local_clauseFrom hedge n t fun _ _ => hstops).moves _ (fun _ => trivial) h

theorem eq_of_nil (h : Clauses n ts [] rest) : rest = ts := by
  cases h
  rfl

theorem eq_nil (h : Clauses n ts cs ts) : cs = [] := by
  cases h with
  | nil => rfl
  | cons hfirst hmore =>
    have := length_clauseOf hfirst
    have := hmore.suffix.length_le
    omega

/-- Clauses say before one continuation what they say before the other, if the last of them is no
reference or does not go on with the other. -/
theorem moves (hedge : Edge τ τ') {before : List Token} (h : Clauses n (before ++ τ) cs τ)
    (hlast : (∀ c ∈ cs.getLast?, c.reference? = none) ∨ goesOnWithReference τ' = false) :
    Clauses n (before ++ τ') cs τ' := by
  obtain ⟨ts, hts⟩ : ∃ ts, ts = before ++ τ := ⟨_, rfl⟩
  obtain ⟨rest, hrest⟩ : ∃ rest, rest = τ := ⟨_, rfl⟩
  rw [← hts, ← hrest] at h
  induction h generalizing before with
  | nil ts =>
    obtain rfl : before = [] := List.append_left_eq_self.1 (hts.symm.trans hrest)
    exact .nil _
  | @cons c cs ts left rest hfirst hmore ih =>
    subst hts hrest
    obtain ⟨mid, rfl⟩ := hmore.suffix
    -- the last clause ends at the edge, so nothing may go on behind it
    cases mid with
    | nil =>
      obtain rfl : cs = [] := hmore.eq_nil
      exact .cons (moves_last hedge hfirst (hlast.imp_left fun h => h c rfl)) (.nil _)
    -- any other ends before it, and the edge is not seen
    | cons t mid =>
      have hne : (t :: mid : List Token) = [] → goesOnWithReference τ' = false := nofun
      refine .cons ((local_clauseOf hedge n id).moves before hne hfirst) (ih ?_ rfl rfl)
      cases cs with
      | nil =>
        have hlength := congrArg List.length hmore.eq_of_nil
        rw [List.length_append, List.length_cons] at hlength
        omega
      | cons c' cs => exact hlast

/-- Clauses are read one after the other, and change the draft in turn. -/
theorem iterate_eq {d : ColumnDraft} (h : Clauses d.column.name ts cs rest) :
    iterate columnClause d ts = iterate columnClause (cs.foldl Clause.apply d) rest := by
  obtain ⟨n, hn⟩ : ∃ n, n = d.column.name := ⟨_, rfl⟩
  rw [← hn] at h
  induction h generalizing d with
  | nil => rfl
  | @cons c cs ts left rest hfirst _ ih =>
    have hround : columnClause d ts = .ok (.yield (c.apply d), left) := by
      rw [columnClause_eq, ← hn]
      change Except.bind (clauseOf n ts) _ = _
      rw [hfirst]
      rfl
    rw [(Comes.round hround (length_clauseOf hfirst) (.refl _ _)).iterate_eq]
    exact ih (hn.trans (congrArg Prod.fst (c.signature_change d.column)).symm)

end Clauses

/-- A column ends with the clauses that it has. -/
theorem iterate_columnClause_iff {d d' : ColumnDraft} :
    iterate columnClause d ts = .ok (d', rest) ↔ ∃ cs, Clauses d.column.name ts cs rest ∧
      clauseOf d.column.name rest = .ok (none, rest) ∧ d' = cs.foldl Clause.apply d := by
  constructor
  · intro h
    have hclause (d : ColumnDraft) (ts : List Token) : columnClause d ts =
        (clauseOf d.column.name ts).map fun r => (Clause.step d r.1, r.2) := by
      rw [columnClause_eq]
      change Except.bind (clauseOf d.column.name ts) _ = _
      cases clauseOf d.column.name ts <;> rfl
    -- the induction follows the loop: a failure, an end, a clause, and a clause that takes nothing
    induction d, ts using iterate.induct columnClause with
    | case1 d ts e he =>
      rw [iterate, he] at h
      cases h
    | case2 d ts d'' left hdone =>
      rw [iterate, hdone] at h
      cases h
      rw [hclause] at hdone
      obtain ⟨⟨c?, left'⟩, hc, heq⟩ := ok_of_map hdone
      cases c? with
      | some c => cases heq
      | none =>
        obtain ⟨⟨⟩, rfl⟩ := Prod.mk.inj heq
        obtain rfl := eq_of_clauseOf_none hc
        exact ⟨[], .nil _, hc, rfl⟩
    | case3 d ts d'' left hyield hlt ih =>
      rw [iterate, hyield] at h
      simp only [hlt, if_true] at h
      rw [hclause] at hyield
      obtain ⟨⟨c?, left'⟩, hc, heq⟩ := ok_of_map hyield
      cases c? with
      | none => cases heq
      | some c =>
        obtain ⟨⟨⟩, rfl⟩ := Prod.mk.inj heq
        obtain ⟨cs, hcs, hend, rfl⟩ := ih h
        -- a clause keeps the name of the column, on which the rest is read
        have hname : (c.apply d).column.name = d.column.name :=
          congrArg Prod.fst (c.signature_change d.column)
        rw [hname] at hcs hend
        exact ⟨c :: cs, .cons hc hcs, hend, rfl⟩
    | case4 d ts d'' left hyield hlt =>
      rw [hclause] at hyield
      obtain ⟨⟨c?, left'⟩, hc, heq⟩ := ok_of_map hyield
      cases c? with
      | none => cases heq
      | some c =>
        obtain ⟨⟨⟩, rfl⟩ := Prod.mk.inj heq
        -- a clause takes at least a token, so the loop never stops for want of progress
        exact absurd (length_clauseOf hc) hlt
  · rintro ⟨cs, hcs, hend, rfl⟩
    have hdone : columnClause (cs.foldl Clause.apply d) rest =
        .ok (.done (cs.foldl Clause.apply d), rest) := by
      rw [columnClause_eq, Clause.name_foldl]
      change Except.bind (clauseOf d.column.name rest) _ = _
      rw [hend]
      rfl
    rw [hcs.iterate_eq, iterate, hdone]

end CrudGen.Sql.Parser
