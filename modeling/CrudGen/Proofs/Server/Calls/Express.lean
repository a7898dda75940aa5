import CrudGen.Proofs.Entity.Relations
import CrudGen.Proofs.Server.Calls.Basic
import CrudGen.Proofs.Text.Pieces
import CrudGen.Server.TypeScript.Express

/-!
# Calls for Express

The lines of a repository say which methods it has, and which statement each of them runs with which
values.

Main results:

* `events_repositoryModule` — a repository runs the statements of its entity, each with its values,
  and then those that load related rows.
-/

namespace CrudGen.TypeScript.Express

open Code Naming Sql

-- ---------------------------------------------------------------------------
-- Reading a repository
-- ---------------------------------------------------------------------------

/-- What a line of a repository says: that a method begins, or which statement it runs with which
values, as they are listed. -/
inductive Event where
  | method (name : String)
  | query (sql values : String)
  deriving DecidableEq, Repr

/-- How a method begins: `async `. -/
def methodHead : List Char :=
  ['a', 's', 'y', 'n', 'c', ' ']

/-- How a line begins that runs a statement: `const `. -/
def queryHead : List Char :=
  ['c', 'o', 'n', 's', 't', ' ']

/-- What stands between the first opening and the last closing square bracket. -/
def listedIn (cs : List Char) : String :=
  String.ofList ((cs.dropWhile (· != '[')).tail.reverse.dropWhile (· != ']')).tail.reverse

/-- The statement and the values that stand in some characters. -/
def queryIn : List Char → List Event
  | '"' :: rest =>
    let (sql, behind) := Text.readLiteral '"' false rest
    [.query (String.ofList sql) (listedIn behind)]
  | _ => []

/-- What a line of a repository says. -/
def eventsIn (cs : List Char) : List Event :=
  match cs.dropPrefix? methodHead with
  | some rest => [.method (String.ofList (rest.takeWhile (· != '(')))]
  | none => if queryHead.isPrefixOf cs then queryIn (cs.dropWhile (· != '(')).tail else []

/-- What the lines of a method say that runs a statement. -/
def Event.ofCall (c : Call) : List Event :=
  [.method c.method, .query c.sql (", ".intercalate c.values)]

-- ---------------------------------------------------------------------------
-- Lines
-- ---------------------------------------------------------------------------

/-- A method is read as its head and then as its body. -/
theorem read_method {head : String} {body : List Code} (out : List Event)
    (h : Says eventsIn head out) :
    (block head body).read eventsIn = out ++ body.flatMap (read eventsIn) := by
  have hclose : eventsIn (unindented ("\x7d" ++ "")) = [] :=
    Says.line (.append (.literal fun _ => rfl))
  rw [block, read_block (by decide) hclose, h.append.line]

/-- The head of a method says its name. -/
theorem says_method {name : String} (h : '(' ∉ name.toList) (more : String) :
    Says eventsIn ("async " ++ (name ++ ("(" ++ more))) [.method name] := by
  intro rest
  have hhead : "async ".toList = methodHead := String.toList_ofList
  have hline : ("async " ++ (name ++ ("(" ++ more))).toList ++ rest =
      methodHead ++ (name.toList ++ '(' :: (more.toList ++ rest)) := by
    simp [hhead]
  have hevents (cs : List Char) : eventsIn ((methodHead ++ cs).dropWhile (· == ' ')) =
      [.method (String.ofList (cs.takeWhile (· != '(')))] := by
    have hdrop : (methodHead ++ cs).dropPrefix? methodHead = some cs :=
      List.dropPrefix?_eq_some_iff.2 ⟨methodHead, rfl, beq_self_eq_true _⟩
    have hstart : (methodHead ++ cs).dropWhile (· == ' ') = methodHead ++ cs := rfl
    rw [hstart, eventsIn, hdrop]
  rw [hline, hevents, Text.takeWhile_ne_append h, String.ofList_toList]

/-- A line that runs a statement says which one, and with which values. -/
theorem read_query {front : List Char} (hbracket : '(' ∉ front)
    (hstarts : ∀ rest, eventsIn ((front ++ rest).dropWhile (· == ' ')) =
      queryIn ((front ++ rest).dropWhile (· != '(')).tail) (sql behind : String) :
    eventsIn (unindented (String.ofList front ++ "(" ++ Text.quote sql ++ behind)) =
      [.query sql (listedIn behind.toList)] := by
  obtain ⟨more, hliteral, hread⟩ := Text.readLiteral_quote sql behind.toList
  have hline : (String.ofList front ++ "(" ++ Text.quote sql ++ behind).toList =
      front ++ '(' :: '"' :: more := by
    simp [← hliteral]
  have hquery : queryIn ('"' :: more) =
      [.query (String.ofList sql.toList) (listedIn behind.toList)] := by
    rw [queryIn, hread]
  rw [unindented, hline, hstarts, Text.dropWhile_ne_append hbracket, List.tail_cons, hquery,
    String.ofList_toList]

/-- The values of a query stand between the brackets behind its statement. -/
theorem listedIn_list (text : String) : listedIn (", [" ++ text ++ "]);").toList = text := by
  have hopen : ", [".toList = [',', ' ', '['] := String.toList_ofList
  have hclose : "]);".toList = [']', ')', ';'] := String.toList_ofList
  have hlist : (", [" ++ text ++ "]);").toList =
      ',' :: ' ' :: '[' :: (text.toList ++ [']', ')', ';']) := by
    simp [hopen, hclose]
  have hbehind : (text.toList ++ [']', ')', ';']).reverse =
      ';' :: ')' :: ']' :: text.toList.reverse := by
    simp
  rw [listedIn, hlist, List.dropWhile_cons_of_pos rfl, List.dropWhile_cons_of_pos rfl,
    List.dropWhile_cons_of_neg (by decide), List.tail_cons, hbehind,
    List.dropWhile_cons_of_pos rfl, List.dropWhile_cons_of_pos rfl,
    List.dropWhile_cons_of_neg (by decide), List.tail_cons, List.reverse_reverse,
    String.ofList_toList]

/-- A query may have no values. -/
theorem listedIn_none : listedIn ");".toList = "" :=
  rfl

/-- Rows are queried by a statement, which is read back from its literal. -/
theorem read_rows (sql behind : String) : eventsIn (unindented
    ("const \x7b rows \x7d = await pool.query" ++ "(" ++ Text.quote sql ++ behind)) =
      [.query sql (listedIn behind.toList)] :=
  read_query (by decide) (fun _ => rfl) sql behind

/-- Rows are queried with values. -/
theorem read_rowsOf (sql : String) (values : List String) :
    eventsIn (unindented (rowsOf sql values)) = [.query sql (", ".intercalate values)] := by
  have hopen : "const \x7b rows \x7d = " ++ "await pool.query(" =
      "const \x7b rows \x7d = await pool.query" ++ "(" := rfl
  have hline : rowsOf sql values = "const \x7b rows \x7d = await pool.query" ++ "(" ++
      Text.quote sql ++ (", [" ++ ", ".intercalate values ++ "]);") := by
    unfold rowsOf query
    simp only [← String.append_assoc]
    rw [hopen]
  rw [hline, read_rows, listedIn_list]

/-- Rows are queried without values. -/
theorem read_allRows (sql : String) : eventsIn (unindented
    ("const \x7b rows \x7d = await pool.query(" ++ Text.quote sql ++ ");")) = [.query sql ""] := by
  have hopen : "const \x7b rows \x7d = await pool.query(" =
      "const \x7b rows \x7d = await pool.query" ++ "(" := rfl
  rw [hopen, read_rows, listedIn_none]

/-- A result is queried with values. -/
theorem read_resultOf (sql : String) (values : List String) :
    eventsIn (unindented ("const result = " ++ query sql values)) =
      [.query sql (", ".intercalate values)] := by
  have hopen : "const result = " ++ "await pool.query(" =
      "const result = await pool.query" ++ "(" := rfl
  have hline : "const result = " ++ query sql values = "const result = await pool.query" ++ "(" ++
      Text.quote sql ++ (", [" ++ ", ".intercalate values ++ "]);") := by
    unfold query
    simp only [← String.append_assoc]
    rw [hopen]
  rw [hline, read_query (by decide) (fun _ => rfl) sql, listedIn_list]

-- ---------------------------------------------------------------------------
-- Methods
-- ---------------------------------------------------------------------------

theorem read_empty : eventsIn (unindented "") = [] :=
  read_literal rfl

/-- Returning the first row is no event. -/
theorem read_firstRow (entity : String) : eventsIn (unindented (firstRow entity)) = [] :=
  Says.line (.append (.append (.literal fun _ => rfl)))

theorem read_everyRow (entity : String) :
    eventsIn (unindented ("return rows.map(to" ++ entity ++ ");")) = [] :=
  Says.line (.append (.append (.literal fun _ => rfl)))

section Methods

variable {b : Blueprint} {e : Entity} {st : Statements}

/-- The methods that read rows query the statements that read rows, each with its values. -/
theorem read_readMethods : (readMethods b e st).flatMap (read eventsIn) =
    Event.ofCall ⟨"list", st.list, if b.features.pagination then ["limit", "offset"] else []⟩ ++
      (Event.ofCall ⟨"count", st.count, []⟩ ++
        st.find.toList.flatMap fun sql => Event.ofCall ⟨"find", sql, keyNames e⟩) := by
  have hcount : eventsIn (unindented "return Number(rows[0].count);") = [] :=
    Says.line (.literal fun _ => rfl)
  have hfind (sql : String) : Code.read eventsIn (block ("async find(" ++ keyParams e ++
      ("): Promise<" ++ e.names.entity ++ " | undefined>")) [rowsOf sql (keyNames e),
        firstRow e.names.entity]) = Event.ofCall ⟨"find", sql, keyNames e⟩ := by
    rw [read_method [.method "find"]]
    · simp -implicitDefEqProofs only [List.flatMap_cons, List.flatMap_nil, read_line, read_rowsOf,
        read_firstRow, List.append_nil]
      rfl
    · exact .append (.append (.literal fun _ => rfl))
  unfold readMethods
  dsimp only
  simp -implicitDefEqProofs only [toString, List.flatMap_cons, List.flatMap_nil, read_whenSome,
    read_line, read_empty, List.nil_append, List.append_nil, hfind]
  rw [read_method [.method "count"] (.literal fun _ => rfl)]
  simp -implicitDefEqProofs only [List.flatMap_cons, List.flatMap_nil, read_line, read_allRows,
    hcount, List.append_nil]
  congr 1
  -- rows are listed in pages or all at once
  split
  · rw [read_method [.method "list"]]
    · simp -implicitDefEqProofs only [List.flatMap_cons, List.flatMap_nil, read_line, read_rowsOf,
        read_everyRow, List.append_nil]
      rfl
    · exact .append (.append (.literal fun _ => rfl))
  · rw [read_method [.method "list"]]
    · simp -implicitDefEqProofs only [List.flatMap_cons, List.flatMap_nil, read_line, read_allRows,
        read_everyRow, List.append_nil]
      rfl
    · exact .append (.append (.literal fun _ => rfl))

/-- The methods that write rows query the statements that write rows, each with its values. -/
theorem read_writeMethods : (writeMethods e st).flatMap (read eventsIn) =
    Event.ofCall ⟨"create", st.insert, inputValues e⟩ ++
      ((st.update.toList.flatMap fun sql =>
        Event.ofCall ⟨"update", sql, inputValues e ++ keyNames e⟩) ++
          st.delete.toList.flatMap fun sql => Event.ofCall ⟨"delete", sql, keyNames e⟩) := by
  have hfirst : eventsIn (unindented ("return to" ++ e.names.entity ++ "(rows[0]);")) = [] :=
    Says.line (.append (.append (.literal fun _ => rfl)))
  have hmarked : eventsIn (unindented "return (result.rowCount ?? 0) > 0;") = [] :=
    Says.line (.literal fun _ => rfl)
  -- `update` and `delete` are there only for a table with a key, each a method of its own
  have hupdate (sql : String) : Code.read eventsIn (block ("async update(" ++ keyParams e ++
      (", input: Update" ++ e.names.entity ++ "Dto): Promise<" ++ e.names.entity ++
        " | undefined>")) [rowsOf sql (inputValues e ++ keyNames e), firstRow e.names.entity]) =
      Event.ofCall ⟨"update", sql, inputValues e ++ keyNames e⟩ := by
    rw [read_method [.method "update"]]
    · simp -implicitDefEqProofs only [List.flatMap_cons, List.flatMap_nil, read_line, read_rowsOf,
        read_firstRow, List.append_nil]
      rfl
    · exact .append (.append (.literal fun _ => rfl))
  have hdelete (sql : String) : Code.read eventsIn (block ("async delete(" ++ keyParams e ++
      "): Promise<boolean>") ["const result = " ++ query sql (keyNames e),
        "return (result.rowCount ?? 0) > 0;"]) = Event.ofCall ⟨"delete", sql, keyNames e⟩ := by
    rw [read_method [.method "delete"]]
    · simp -implicitDefEqProofs only [List.flatMap_cons, List.flatMap_nil, read_line, read_resultOf,
        hmarked, List.append_nil]
      rfl
    · exact .append (.append (.literal fun _ => rfl))
  unfold writeMethods
  dsimp only
  simp -implicitDefEqProofs only [toString, List.flatMap_cons, List.flatMap_nil, read_whenSome,
    read_line, read_empty, List.nil_append, List.append_nil, hupdate, hdelete]
  rw [read_method [.method "create"]]
  · simp -implicitDefEqProofs only [List.flatMap_cons, List.flatMap_nil, read_line, read_rowsOf,
      hfirst, List.append_nil]
    rfl
  · exact .append (.append (.append (.append (.literal fun _ => rfl))))

/-- How the related rows of an entity are loaded: by its columns that the relation goes from. -/
def loaderCall (e : Entity) (r : Relation) : Call :=
  ⟨r.name, related r, (r.localColumns.filterMap e.field?).map fun f => "row." ++ f.name⟩

/-- A loader queries the statement of its relation with the values of the columns that refer. -/
theorem read_relationLoader {r : Relation} (hname : '(' ∉ r.name.toList) :
    (relationLoader e r).flatMap (read eventsIn) = Event.ofCall (loaderCall e r) := by
  have hopen : "(row: " = "(" ++ "row: " := rfl
  have hreturn : Code.read eventsIn (if r.kind.isCollection then
      ("return rows.map(to" ++ r.targetEntity ++ ");" : Code)
        else firstRow r.targetEntity) = [] := by
    split
    · exact (read_line _ _).trans (read_everyRow _)
    · exact (read_line _ _).trans (read_firstRow _)
  unfold relationLoader
  dsimp only
  simp -implicitDefEqProofs only [toString, List.flatMap_cons, List.flatMap_nil, read_line,
    read_empty, List.nil_append, List.append_nil]
  rw [read_method [.method r.name]]
  · simp -implicitDefEqProofs only [List.flatMap_cons, List.flatMap_nil, read_line, read_rowsOf,
      hreturn, List.append_nil]
    rfl
  · rw [hopen]
    simp only [String.append_assoc]
    exact says_method hname _

end Methods

-- ---------------------------------------------------------------------------
-- The repository
-- ---------------------------------------------------------------------------

/-- The methods of a repository that run the statements of its entity. Pages come as numbers, inputs
as the members of an object or as null, and keys as parameters. -/
def repositoryCalls (b : Blueprint) (e : Entity) : List Call :=
  (Statements.ofEntity e b.features.pagination b.features.softDelete).calls
    (if b.features.pagination then ["limit", "offset"] else []) (inputValues e) (keyNames e)

/-- What stands between the commas of a list, without the blanks before it. -/
def listedValues (text : String) : List String :=
  (Text.splitAll (· == ',') text.toList).map fun piece =>
    String.ofList (piece.dropWhile (· == ' '))

/-- A blank before the first value does not matter. -/
theorem splitAll_blank (cs : List Char) :
    ((Text.splitAll (· == ',') (' ' :: cs)).map fun piece =>
        String.ofList (piece.dropWhile (· == ' '))) =
      (Text.splitAll (· == ',') cs).map fun piece =>
        String.ofList (piece.dropWhile (· == ' ')) := by
  rw [Text.splitAll, if_neg (by decide)]
  cases hpieces : Text.splitAll (· == ',') cs with
  | nil => exact absurd hpieces (Text.splitAll_ne_nil cs)
  | cons piece more => rfl

/-- A text that can be told from what is listed with it. -/
def Listable (text : String) : Prop :=
  ',' ∉ text.toList ∧ ∀ c ∈ text.toList.head?, c ≠ ' '

/-- What is listed is found between the commas. -/
theorem listedValues_intercalate {values : List String} (hsome : values ≠ [])
    (h : ∀ value ∈ values, Listable value) : listedValues (", ".intercalate values) = values := by
  have hpieces {value : String} (hvalue : Listable value) :
      Text.splitAll (· == ',') value.toList = [value.toList] ∧
        String.ofList (value.toList.dropWhile (· == ' ')) = value := by
    refine ⟨Text.splitAll_eq_singleton fun c hc => ?_, ?_⟩
    · rw [beq_eq_false_iff_ne]
      rintro rfl
      exact hvalue.1 hc
    -- what stands between two commas has no blank in front
    · have hblank := hvalue.2
      cases hcs : value.toList with
      | nil => exact (String.toList_eq_nil_iff.1 hcs).symm
      | cons c rest =>
        rw [hcs] at hblank
        rw [List.dropWhile_cons_of_neg (by simpa using hblank c rfl), ← hcs, String.ofList_toList]
  induction values with
  | nil => exact absurd rfl hsome
  | cons value rest ih =>
    rw [List.forall_mem_cons] at h
    cases rest with
    | nil =>
      rw [String.intercalate_singleton, listedValues, (hpieces h.1).1, List.map_singleton,
        (hpieces h.1).2]
    | cons next more =>
      have hcomma : ", ".toList = [',', ' '] := String.toList_ofList
      have hline : (", ".intercalate (value :: next :: more)).toList =
          value.toList ++ ',' :: ' ' :: (", ".intercalate (next :: more)).toList := by
        simp [String.intercalate_cons_cons, hcomma]
      -- behind the first value stand a comma and a blank, which the split takes off
      rw [listedValues, hline, Text.splitAll_append (by decide), List.map_append, splitAll_blank,
        (hpieces h.1).1, List.map_singleton, (hpieces h.1).2]
      exact congrArg (value :: ·) (ih (by simp) h.2)

/-- The values of a repository can be told from each other in a list. A name that is empty, since its
column has neither letters nor numerals, counts as well. -/
theorem listable_of_mem_values {b : Blueprint} {e : Entity} (h : e.Tame) :
    ∀ call ∈ repositoryCalls b e, ∀ value ∈ call.values, Listable value := by
  have hname {f : Field} (hf : f ∈ e.fields) : Listable f.name :=
    ⟨(h.field f hf).not_mem (by decide), fun c hc hblank =>
      absurd (h.field f hf c (List.mem_of_mem_head? hc)) (hblank ▸ by decide)⟩
  have hkey : ∀ value ∈ keyNames e, Listable value := by
    rw [keyNames, List.forall_mem_map]
    exact fun f hf => hname (List.mem_filter.1 hf).1
  have hinputs : ∀ value ∈ inputValues e, Listable value := by
    rw [inputValues, List.forall_mem_map]
    intro f hf
    have hinput : "input.".toList = ['i', 'n', 'p', 'u', 't', '.'] := String.toList_ofList
    have hnull : " ?? null".toList = [' ', '?', '?', ' ', 'n', 'u', 'l', 'l'] :=
      String.toList_ofList
    have hcomma := (hname (List.mem_filter.1 hf).1).1
    simp [Listable, toString, hinput, hnull, hcomma]
  have hpage : ∀ value ∈ if b.features.pagination then ["limit", "offset"] else [],
      Listable value := by
    have hlimit : "limit".toList = ['l', 'i', 'm', 'i', 't'] := String.toList_ofList
    have hoffset : "offset".toList = ['o', 'f', 'f', 's', 'e', 't'] := String.toList_ofList
    split
    · simp [Listable, hlimit, hoffset]
    · simp
  intro call hcall
  simp only [repositoryCalls, Statements.calls, List.mem_cons, List.mem_append, List.mem_map]
    at hcall
  -- the calls of a repository one by one: list, count, find, insert, update, delete
  rcases hcall with rfl | rfl | ⟨sql, -, rfl⟩ | rfl | ⟨sql, -, rfl⟩ | ⟨sql, -, rfl⟩
  · exact hpage
  · exact fun value hvalue => absurd hvalue List.not_mem_nil
  · exact hkey
  · exact hinputs
  · exact List.forall_mem_append.2 ⟨hinputs, hkey⟩
  · exact hkey

/-- **Repositories.** A repository runs the statements of its entity, each with its values, and then
those that load what its relations lead to. -/
theorem events_repositoryModule {b : Blueprint} {e : Entity} (h : e.Tame) :
    (repositoryModule b e).flatMap (read eventsIn) =
      (repositoryCalls b e ++ e.relations.map (loaderCall e)).flatMap Event.ofCall := by
  have hloaders : e.relations.flatMap (fun r => (relationLoader e r).flatMap (read eventsIn)) =
      (e.relations.map (loaderCall e)).flatMap Event.ofCall := by
    rw [List.flatMap_map]
    -- a loader's own lines are read as its one call
    exact List.flatMap_congr fun r hr =>
      read_relationLoader ((h.loader r hr).not_mem (by decide))
  have hpool : eventsIn (unindented "import \x7b pool \x7d from '../db';") = [] :=
    Says.line (.literal fun _ => rfl)
  have hdto : eventsIn (unindented ("import \x7b Create" ++ e.names.entity ++ "Dto, Update" ++
      e.names.entity ++ "Dto \x7d from '../dto/" ++ e.names.file ++ ".dto';")) = [] :=
    Says.line (.append (.append (.append (.append (.append (.append (.literal fun _ => rfl)))))))
  have hmodel (file entity : String) : eventsIn (unindented ("import \x7b " ++ entity ++ ", to" ++
      entity ++ " \x7d from '../models/" ++ file ++ "';")) = [] :=
    Says.line (.append (.append (.append (.append (.append (.append (.literal fun _ => rfl)))))))
  have hneighbours : (e.neighbours.flatMap fun _ => ([] : List Event)) = [] :=
    List.flatMap_eq_nil_iff.2 fun _ _ => rfl
  unfold repositoryModule
  dsimp only
  simp -implicitDefEqProofs only [toString, List.flatMap_cons, List.flatMap_nil, read_each,
    read_line, read_empty, List.nil_append, List.append_nil, hpool, hdto, hmodel, hneighbours]
  rw [read_method []]
  · simp -implicitDefEqProofs only [List.flatMap_cons, List.flatMap_nil, read_all, read_each,
      read_readMethods, read_writeMethods, hloaders, List.nil_append, List.append_nil]
    simp only [repositoryCalls, Statements.calls, List.flatMap_append, List.flatMap_cons,
      List.flatMap_map, List.append_assoc]
  · exact .append (.append (.literal fun _ => rfl))

end CrudGen.TypeScript.Express
