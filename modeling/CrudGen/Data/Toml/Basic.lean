/-!
# TOML documents

A document is read into `Toml` values. Headers and dotted keys open tables step by step, so a
document under construction is a tree of `Node`s that remember how each table came to be: a table
may be opened once by its header, and a table that dotted keys opened may not be opened by one.
-/

namespace CrudGen

/-- A value of a document. Numbers and truth values are told apart from the rest only. -/
inductive Toml where
  | text (s : String)
  /-- A date, a time of day or both, as its canonical text. -/
  | moment (s : String)
  /-- A number or a truth value. -/
  | atom
  | array (items : List Toml)
  | table (entries : List (String × Toml))
  deriving Inhabited

namespace Toml

/-- How a table came to be. -/
inductive Origin where
  /-- By a header that names a table inside it. -/
  | implied
  /-- By its own header. -/
  | header
  /-- By a dotted key. -/
  | dotted
  deriving DecidableEq, Repr, Inhabited

/-- A part of a document under construction. -/
inductive Node where
  | value (v : Toml)
  | table (origin : Origin) (entries : List (String × Node))
  /-- A list of tables, opened by headers in double brackets; the last one comes first. -/
  | tables (reversed : List (List (String × Node)))
  deriving Inhabited

/-- The members of a table under construction. -/
abbrev Members := List (String × Node)

/-- Changes the member of a key, or adds it at the end. `none` is a failure. -/
def alter (key : String) (f : Option Node → Option Node) : Members → Option Members
  | [] => (f none).map fun n => [(key, n)]
  | (k, n) :: rest =>
    if k == key then (f (some n)).map fun n => (k, n) :: rest
    else (alter key f rest).map ((k, n) :: ·)

/-- Changes the table that a header inside it leads through. -/
def through (f : Members → Option Members) : Option Node → Option Node
  | none => (f []).map (.table .implied)
  | some (.table origin members) => (f members).map (.table origin)
  | some (.tables (last :: before)) => (f last).map fun m => .tables (m :: before)
  | some _ => none

/-- Opens the table of a header. -/
def openTable : List String → Members → Option Members
  | [], _ => none
  | [key], members => members |> alter key fun
    | none => some (.table .header [])
    | some (.table .implied inner) => some (.table .header inner)
    | some _ => none
  | key :: rest, members => alter key (through (openTable rest)) members

/-- Opens one more table of a header in double brackets. -/
def openElement : List String → Members → Option Members
  | [], _ => none
  | [key], members => members |> alter key fun
    | none => some (.tables [[]])
    | some (.tables before) => some (.tables ([] :: before))
    | some _ => none
  | key :: rest, members => alter key (through (openElement rest)) members

/-- Gives a dotted key a value, which may not have one yet. The key may lead through tables that
headers imply and through the last table of a list, but the table that receives the value has to be
one of dotted keys, or the table at hand: `receives` says whether this one is. -/
def assign (v : Toml) (receives : Bool) : List String → Members → Option Members
  | [], _ => none
  | [key], members => members |> alter key fun
    | none => if receives then some (.value v) else none
    | some _ => none
  | key :: rest, members => members |> alter key fun
    | none => (assign v true rest []).map (.table .dotted)
    | some (.table .dotted inner) => (assign v true rest inner).map (.table .dotted)
    | some (.table .implied inner) => (assign v false rest inner).map (.table .implied)
    | some (.tables (last :: before)) =>
      (assign v false rest last).map fun m => .tables (m :: before)
    | some _ => none

/-- Applies a change to the table that a header has opened. -/
def within (f : Members → Option Members) : List String → Members → Option Members
  | [], members => f members
  | key :: rest, members => alter key (through (within f rest)) members

mutual

/-- The value that a part of a document is. -/
def Node.toToml : Node → Toml
  | .value v => v
  | .table _ members => .table (membersToToml members)
  | .tables reversed => .array (tablesToToml reversed).reverse

/-- The entries that members are. -/
def membersToToml : Members → List (String × Toml)
  | [] => []
  | (key, n) :: rest => (key, n.toToml) :: membersToToml rest

/-- The tables that lists of members are. -/
def tablesToToml : List Members → List Toml
  | [] => []
  | members :: rest => .table (membersToToml members) :: tablesToToml rest

end

/-- The member of a structure whose members are declared in an order: an array gives them by
place, a table by name. -/
def member? (order : List String) (name : String) : Toml → Option Toml
  | .table entries => entries.lookup name
  | .array items => items[order.idxOf name]?
  | _ => none

/-- The text that a value is. -/
def asText? : Toml → Option String
  | .text s => some s
  | _ => none

/-- The word that a value chooses among alternatives: a text, or the only key of a table with
nothing below it. -/
def asWord? : Toml → Option String
  | .text s => some s
  | .table [(word, .table [])] | .table [(word, .array [])] => some word
  | _ => none

/-- The values that an array holds. -/
def asItems? : Toml → Option (List Toml)
  | .array items => some items
  | _ => none

/-- The entries that a table holds. -/
def asEntries? : Toml → Option (List (String × Toml))
  | .table entries => some entries
  | _ => none

/-- The key under which the text of a date stands where a table is expected. -/
def momentKey : String :=
  "$__toml_private_datetime"

/-- The texts that an array holds. -/
def asTexts? (v : Toml) : Option (List String) := do
  (← v.asItems?).mapM asText?

/-- The texts by key that a table holds. A date counts as a table of one entry. -/
def asTextTable? : Toml → Option (List (String × String))
  | .moment s => some [(momentKey, s)]
  | v => do (← v.asEntries?).mapM fun (key, v) => v.asText?.map fun s => (key, s)

end Toml

end CrudGen
