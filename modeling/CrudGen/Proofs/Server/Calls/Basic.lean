import CrudGen.Proofs.Server.Reading
import CrudGen.Proofs.Server.Statements.Bindings

/-!
# Calls

A repository has a method for each statement of an entity. The method runs the statement with values
for its parameters, and a service calls it by name.

Main results:

* `range'_of_mem_calls` — the parameters of a statement that is run are numbered in the order of the
  values, as many as there are values.
* `isSome_find_iff`, `isSome_update_iff`, `isSome_delete_iff` — which statements there are.
* `Calls.silent`, `calls_of_not_mem` — which parts of a text call nothing.
-/

namespace CrudGen

namespace Sql

-- ---------------------------------------------------------------------------
-- Calls
-- ---------------------------------------------------------------------------

/-- A method that runs a statement with some values, in order. -/
structure Call where
  method : String
  sql : String
  values : List String
  deriving DecidableEq, Repr

/-- The methods that run the statements of an entity, where pages, inputs and keys come as some
values. -/
def Statements.calls (s : Statements) (page inputs key : List String) : List Call :=
  ⟨"list", s.list, page⟩ :: ⟨"count", s.count, []⟩ ::
    (s.find.toList.map (⟨"find", ·, key⟩) ++ ⟨"create", s.insert, inputs⟩ ::
      (s.update.toList.map (⟨"update", ·, inputs ++ key⟩) ++
        s.delete.toList.map (⟨"delete", ·, key⟩)))

section Calls

variable {e : Entity} {paginate softDelete : Bool} {page inputs key : List String} {call : Call}

/-- With a value for each of the inputs and each part of the key, and two if there are pages, every
statement is run with the values of its parameters. -/
theorem range'_of_mem_calls (hpage : page.length = if paginate then 2 else 0)
    (hinputs : inputs.length = (inputColumns e).length) (hkey : key.length = (keyColumns e).length)
    (h : call ∈ (Statements.ofEntity e paginate softDelete).calls page inputs key) :
    parameters call.sql = List.range' 1 call.values.length := by
  simp only [Statements.calls, List.mem_cons, List.mem_append, List.mem_map, Option.mem_toList]
    at h
  rcases h with rfl | rfl | ⟨sql, hfind, rfl⟩ | rfl | ⟨sql, hupdate, rfl⟩ | ⟨sql, hdelete, rfl⟩
  · rw [parameters_list, hpage]
    cases paginate <;> rfl
  · rw [parameters_count]
    rfl
  · rw [parameters_find hfind, hkey]
  · rw [parameters_insert, hinputs]
  · rw [parameters_update hupdate, List.length_append, hinputs, hkey]
  · rw [parameters_delete hdelete, hkey]

theorem isSome_find_iff : (Statements.ofEntity e paginate softDelete).find.isSome ↔
    keyColumns e ≠ [] := by
  rw [find_eq]
  split <;> simp_all

theorem isSome_delete_iff : (Statements.ofEntity e paginate softDelete).delete.isSome ↔
    keyColumns e ≠ [] := by
  rw [delete_eq]
  split <;> simp_all

theorem isSome_update_iff : (Statements.ofEntity e paginate softDelete).update.isSome ↔
    keyColumns e ≠ [] ∧ inputColumns e ≠ [] := by
  rw [update_eq]
  split
  · simp_all
  · split <;> simp_all

end Calls

end Sql

-- ---------------------------------------------------------------------------
-- Names of methods that are called
-- ---------------------------------------------------------------------------

namespace Code

/-- The methods that are called in some characters: what stands between a dot and an opening
bracket. Behind a dot, the name is kept as far as it has been read, in reverse. -/
def calleesFrom : Option (List Char) → List Char → List String
  | _, [] => []
  | some name, c :: rest =>
    if c = '.' then calleesFrom (some []) rest
    else if Sql.Lexeme.isLetter c then calleesFrom (some (c :: name)) rest
    else if c = '(' then String.ofList name.reverse :: calleesFrom none rest
    else calleesFrom none rest
  | none, c :: rest => calleesFrom (if c = '.' then some [] else none) rest

/-- A text in which some methods are called, whatever follows. -/
def Calls (text : String) (names : List String) : Prop :=
  ∀ rest, calleesFrom none (text.toList ++ rest) = names ++ calleesFrom none rest

section Callees

variable {a b text : String} {names : List String}

/-- What calls nothing adds nothing. -/
theorem Calls.silent (ha : Calls a names) (hb : Calls b []) : Calls (a ++ b) names := by
  intro rest
  rw [String.toList_append, List.append_assoc, ha, hb, List.nil_append]

theorem Calls.literal {cs : List Char}
    (h : ∀ rest, calleesFrom none (cs ++ rest) = names ++ calleesFrom none rest) :
    Calls (String.ofList cs) names := by
  intro rest
  rw [String.toList_ofList, h]

/-- Without a dot nothing is called. -/
theorem calls_of_not_mem (h : '.' ∉ text.toList) : Calls text [] := by
  intro rest
  generalize text.toList = cs at h ⊢
  induction cs with
  | nil => rfl
  | cons c more ih =>
    rw [List.mem_cons, not_or] at h
    rw [List.cons_append, calleesFrom, if_neg (Ne.symm h.1)]
    exact ih h.2

theorem Calls.eq (h : Calls text names) : calleesFrom none text.toList = names := by
  have hall := h []
  rw [List.append_nil] at hall
  rw [hall]
  exact List.append_nil names

/-- Without a bracket nothing is called. -/
theorem calleesFrom_of_not_mem {cs : List Char} (h : '(' ∉ cs) (name : Option (List Char)) :
    calleesFrom name cs = [] := by
  induction cs generalizing name with
  | nil => cases name <;> rfl
  | cons c rest ih =>
    rw [List.mem_cons, not_or] at h
    cases name with
    | none => exact ih h.2 _
    | some name =>
      rw [calleesFrom, if_neg (Ne.symm h.1)]
      split_ifs
      · exact ih h.2 _
      · exact ih h.2 _
      · exact ih h.2 _

end Callees

end Code

end CrudGen
