/-!
# Dictionaries

Pairs of keys and values, kept in ascending order of their keys and with each key once.
-/

namespace CrudGen

/-- Pairs in ascending order of their keys. -/
abbrev Dict (κ α : Type) := List (κ × α)

namespace Dict

variable {κ α : Type}

/-- The value of a key. -/
def get? [BEq κ] (d : Dict κ α) (key : κ) : Option α :=
  d.lookup key

/-- Whether a key has a value. -/
def contains [BEq κ] (d : Dict κ α) (key : κ) : Bool :=
  (d.get? key).isSome

/-- Gives a key a value, in place of one it may have. -/
def insert [LT κ] [DecidableLT κ] (key : κ) (value : α) : Dict κ α → Dict κ α
  | [] => [(key, value)]
  | (k, v) :: rest =>
    if key < k then (key, value) :: (k, v) :: rest
    else if k < key then (k, v) :: insert key value rest
    else (key, value) :: rest

theorem length_insert_le [LT κ] [DecidableLT κ] (d : Dict κ α) (key : κ) (value : α) :
    (d.insert key value).length ≤ d.length + 1 := by
  induction d with
  | nil => simp [insert]
  | cons entry rest ih =>
    simp only [insert]
    split
    · simp
    · split
      · simpa using ih
      · simp

/-- A pair of a dictionary was there before the insertion, or is the one that was inserted. -/
theorem of_mem_insert [LT κ] [DecidableLT κ] {d : Dict κ α} {key : κ} {value : α} {p : κ × α}
    (h : p ∈ d.insert key value) : p = (key, value) ∨ p ∈ d := by
  induction d with
  | nil => exact .inl (List.mem_singleton.1 h)
  | cons entry rest ih =>
    simp only [insert] at h
    split at h
    · exact List.mem_cons.1 h
    · split at h
      · rcases List.mem_cons.1 h with rfl | h
        · exact .inr List.mem_cons_self
        · exact (ih h).imp_right (List.mem_cons_of_mem _)
      · exact (List.mem_cons.1 h).imp_right (List.mem_cons_of_mem _)

/-- The dictionary of some pairs; of two pairs with one key the later counts. -/
def ofList [LT κ] [DecidableLT κ] (pairs : List (κ × α)) : Dict κ α :=
  pairs.foldl (fun d (k, v) => d.insert k v) []

/-- The keys in ascending order. -/
def keys (d : Dict κ α) : List κ :=
  d.map (·.1)

end Dict

/-- The distinct elements of a list in ascending order. -/
def ascending [LT κ] [DecidableLT κ] (xs : List κ) : List κ :=
  (Dict.ofList (xs.map fun x => (x, ()))).keys

end CrudGen
