import CrudGen.Proofs.Entity.Relations
import CrudGen.Proofs.Server.Calls.Basic
import CrudGen.Server.Rust.Repository

/-!
# Calls in Rust

The lines of a repository say which methods it has, which statement each of them runs and which
values it binds. The lines of a service say which methods it calls.

Main results:

* `events_repositoryModule` — a repository runs the statements of its entity, each with its values,
  and then those that load related rows.
* `callees_serviceModule` — a service calls the methods for which there are statements.
-/

namespace CrudGen.Rust

open Code Naming Sql

-- ---------------------------------------------------------------------------
-- Reading a repository
-- ---------------------------------------------------------------------------

/-- What a line of a repository says: that a method begins, which literal it runs as a statement, or
which value it binds. -/
inductive Event where
  | method (name : String)
  | statement (literal : String)
  | value (text : String)
  deriving DecidableEq, Repr

/-- How a method begins: `pub async fn `. -/
def methodHead : List Char :=
  ['p', 'u', 'b', ' ', 'a', 's', 'y', 'n', 'c', ' ', 'f', 'n', ' ']

/-- How a value is bound: `.bind(`. -/
def bindHead : List Char :=
  ['.', 'b', 'i', 'n', 'd', '(']

/-- How statements are run: `sqlx`, or `let ` if more is done with what that gives. -/
def statementHeads : List (List Char) :=
  [['s', 'q', 'l', 'x'], ['l', 'e', 't', ' ']]

/-- What stands between the first bracket and the last character. -/
def argument (cs : List Char) : String :=
  String.ofList (cs.dropWhile (· != '(')).tail.dropLast

/-- The values that are bound one after the other. -/
def boundIn (cs : List Char) : List String :=
  (Text.splitAll (· == ')') cs).filterMap fun piece =>
    (piece.dropPrefix? bindHead).map String.ofList

/-- What a line of a repository says. -/
def eventsIn (cs : List Char) : List Event :=
  match cs.dropPrefix? methodHead with
  | some rest => [.method (String.ofList (rest.takeWhile (· != '(')))]
  | none =>
    if statementHeads.any (·.isPrefixOf cs) then [.statement (argument cs)]
    else if bindHead.isPrefixOf cs then (boundIn cs).map .value
    else []

/-- What the lines of a method say that runs a statement. -/
def Event.ofCall (c : Call) : List Event :=
  .method c.method :: .statement (raw c.sql) :: c.values.map .value

-- ---------------------------------------------------------------------------
-- Lines
-- ---------------------------------------------------------------------------

/-- A method is read as its head and then as its body. -/
theorem read_method {head : String} {body : List Code} (out : List Event)
    (h : Says eventsIn head out) :
    (block head body).read eventsIn = out ++ body.flatMap (read eventsIn) := by
  have hclose : eventsIn (unindented ("\x7d" ++ "")) = [] :=
    Says.line (.append (.literal fun _ => rfl))
  rw [block, read_block (by decide) hclose, h.append.line]

/-- The argument of a call is what stands between its parentheses. -/
theorem argument_append {before : List Char} (h : '(' ∉ before) (text : List Char) :
    argument (before ++ '(' :: (text ++ [')'])) = String.ofList text := by
  rw [argument, Text.dropWhile_ne_append h, List.tail_cons, List.dropLast_concat]

/-- How a line begins that runs a statement, up to the bracket. -/
structure Runs (front : String) : Prop where
  bracket : '(' ∉ front.toList
  starts  : ∀ rest, eventsIn ((front.toList ++ rest).dropWhile (· == ' ')) =
    [.statement (argument (front.toList ++ rest))]

/-- A text that runs a statement does so with more behind it. -/
theorem Runs.append {a b : String} (ha : Runs a) (hb : '(' ∉ b.toList) : Runs (a ++ b) where
  bracket := by
    rw [String.toList_append, List.mem_append, not_or]
    exact ⟨ha.bracket, hb⟩
  starts rest := by
    rw [String.toList_append, List.append_assoc]
    exact ha.starts _

/-- A literal runs a statement if its first characters say so, whatever follows. -/
theorem Runs.literal {cs : List Char} (hbracket : '(' ∉ cs)
    (hstarts : ∀ rest, eventsIn ((cs ++ rest).dropWhile (· == ' ')) =
      [.statement (argument (cs ++ rest))]) : Runs (String.ofList cs) where
  bracket := by rwa [String.toList_ofList]
  starts rest := by rw [String.toList_ofList, hstarts]

/-- A line that runs a statement says which literal that is. -/
theorem Runs.read {front : String} (h : Runs front) (literal : String) :
    eventsIn (unindented (front ++ "(" ++ literal ++ ")")) = [.statement literal] := by
  have hline : (front ++ "(" ++ literal ++ ")").toList =
      front.toList ++ '(' :: (literal.toList ++ [')']) := by
    simp
  rw [unindented, hline, h.starts, argument_append h.bracket, String.ofList_toList]

/-- A query of one number runs its statement. -/
theorem read_scalarQuery (sql : String) :
    eventsIn (unindented ("sqlx::query_scalar(" ++ raw sql ++ ")")) = [.statement (raw sql)] := by
  have hfront : Runs "sqlx::query_scalar" := .literal (by decide) fun _ => rfl
  have hopen : "sqlx::query_scalar(" = "sqlx::query_scalar" ++ "(" := rfl
  rw [hopen]
  exact hfront.read _

/-- A query whose result is counted runs its statement. -/
theorem read_resultQuery (sql : String) :
    eventsIn (unindented ("let result = sqlx::query(" ++ raw sql ++ ")")) =
      [.statement (raw sql)] := by
  have hfront : Runs "let result = sqlx::query" := .literal (by decide) fun _ => rfl
  have hopen : "let result = sqlx::query(" = "let result = sqlx::query" ++ "(" := rfl
  rw [hopen]
  exact hfront.read _

/-- A query of rows runs its statement. -/
theorem read_rowQuery {row : String} (h : '(' ∉ row.toList) (sql : String) :
    eventsIn (unindented (rowQuery row sql)) = [.statement (raw sql)] := by
  have hfront : Runs "sqlx::query_as::<_, " := .literal (by decide) fun _ => rfl
  have hopen : ">(" = ">" ++ "(" := rfl
  have hline : rowQuery row sql = "sqlx::query_as::<_, " ++ row ++ ">(" ++ raw sql ++ ")" := by
    unfold rowQuery
    simp only [toString]
  rw [hline, hopen, ← String.append_assoc]
  exact ((hfront.append h).append (by decide)).read _

/-- What is bound one after the other is bound in that order. -/
theorem boundIn_join {texts : List String} (h : ∀ text ∈ texts, ')' ∉ text.toList) :
    boundIn (String.join (texts.map fun text => ".bind(" ++ text ++ ")")).toList = texts := by
  have hhead : ".bind(".toList = bindHead := String.toList_ofList
  induction texts with
  | nil => rfl
  | cons text rest ih =>
    rw [List.forall_mem_cons] at h
    have hline : (String.join ((text :: rest).map fun text => ".bind(" ++ text ++ ")")).toList =
        (bindHead ++ text.toList) ++ ')' ::
          (String.join (rest.map fun text => ".bind(" ++ text ++ ")")).toList := by
      simp [String.join_cons, ← hhead]
    -- the bracket of a value is the first, as the value has none
    have hpiece : ∀ c ∈ bindHead ++ text.toList, (c == ')') = false := by
      rw [List.forall_mem_append]
      refine ⟨by decide, fun c hc => ?_⟩
      rw [beq_eq_false_iff_ne]
      rintro rfl
      exact h.1 hc
    have hdrop : (bindHead ++ text.toList).dropPrefix? bindHead = some text.toList :=
      List.dropPrefix?_eq_some_iff.2 ⟨bindHead, rfl, beq_self_eq_true _⟩
    have hrest := ih h.2
    rw [boundIn] at hrest
    rw [boundIn, hline, Text.splitAll_append (by decide), Text.splitAll_eq_singleton hpiece,
      List.singleton_append, List.filterMap_cons, hdrop, hrest, Option.map_some,
      String.ofList_toList]

/-- Values are bound one after the other on one line. -/
theorem read_binds {texts : List String} (h : ∀ text ∈ texts, ')' ∉ text.toList) :
    eventsIn (unindented ("    " ++ String.join (texts.map fun text => ".bind(" ++ text ++ ")"))) =
      texts.map .value := by
  rw [unindented_append (by decide)]
  cases texts with
  | nil => rfl
  | cons text rest =>
    have hstart : ∀ more, eventsIn ((".bind(".toList ++ more).dropWhile (· == ' ')) =
        (boundIn (".bind(".toList ++ more)).map .value := by
      have hhead : ".bind(".toList = bindHead := String.toList_ofList
      rw [hhead]
      exact fun _ => rfl
    have hline : (String.join ((text :: rest).map fun text => ".bind(" ++ text ++ ")")).toList =
        ".bind(".toList ++ (text ++ ")" ++
          String.join (rest.map fun text => ".bind(" ++ text ++ ")")).toList := by
      rw [List.map_cons, String.join_cons, ← String.toList_append]
      simp only [String.append_assoc]
    rw [unindented, hline, hstart, ← hline, boundIn_join h]

/-- A line that binds one value. -/
theorem read_bind {front text : String} (h : ')' ∉ (front ++ text).toList) :
    eventsIn (unindented ("    .bind(" ++ front ++ text ++ ")")) = [.value (front ++ text)] := by
  have hindent : "    .bind(" = "    " ++ ".bind(" := rfl
  have hone : ∀ t ∈ [front ++ text], ')' ∉ t.toList := by simpa using h
  have hbinds := read_binds hone
  rw [List.map_singleton, String.join_cons, String.join_nil, String.append_empty] at hbinds
  rw [hindent]
  simpa only [String.append_assoc, List.map_singleton] using hbinds

-- ---------------------------------------------------------------------------
-- Methods
-- ---------------------------------------------------------------------------

/-- Waiting is no event. -/
theorem read_await : eventsIn (unindented "    .await") = [] :=
  Says.line (.literal fun _ => rfl)

theorem read_fetchAll : eventsIn (unindented "    .fetch_all(&self.pool)") = [] :=
  Says.line (.literal fun _ => rfl)

theorem read_fetchOne : eventsIn (unindented "    .fetch_one(&self.pool)") = [] :=
  Says.line (.literal fun _ => rfl)

theorem read_fetchOptional : eventsIn (unindented "    .fetch_optional(&self.pool)") = [] :=
  Says.line (.literal fun _ => rfl)

theorem read_empty : eventsIn (unindented "") = [] :=
  read_literal rfl

section Methods

variable {b : Blueprint} {e : Entity} {st : Statements}

/-- The columns of a key are bound in their order. -/
theorem read_keyBinds (hkey : ∀ name ∈ (Key.ofEntity e).names, ')' ∉ name.toList) :
    eventsIn (unindented ("    " ++ (Key.ofEntity e).binds)) =
      (Key.ofEntity e).names.map .value :=
  read_binds hkey

/-- The methods that read rows run the statements that read rows, each with its values. -/
theorem read_readMethods (hentity : '(' ∉ e.names.entity.toList)
    (hkey : ∀ name ∈ (Key.ofEntity e).names, ')' ∉ name.toList) :
    (readMethods b e st).flatMap (read eventsIn) =
      Event.ofCall ⟨"list", st.list, if b.features.pagination then ["limit", "offset"] else []⟩ ++
        (Event.ofCall ⟨"count", st.count, []⟩ ++
          st.find.toList.flatMap fun sql =>
            Event.ofCall ⟨"find", sql, (Key.ofEntity e).names⟩) := by
  have hlimit : eventsIn (unindented "    .bind(limit)") = [.value "limit"] :=
    read_literal rfl
  have hoffset : eventsIn (unindented "    .bind(offset)") = [.value "offset"] :=
    read_literal rfl
  unfold readMethods
  dsimp only
  simp -implicitDefEqProofs only [toString, List.flatMap_cons, List.flatMap_nil, read_whenSome,
    read_line, read_empty, List.nil_append, List.append_nil]
  -- with pages the values are bound on two more lines of the same statement
  rw [read_method [.method "list"], read_method [.method "count"]]
  · simp -implicitDefEqProofs only [List.flatMap_cons, List.flatMap_nil, read_when, read_line,
      read_rowQuery hentity, read_scalarQuery, read_fetchAll, read_fetchOne, read_await,
      List.append_nil, hlimit, hoffset]
    have hfind (sql : String) : Code.read eventsIn (block ("pub async fn find(&self, " ++
        (Key.ofEntity e).params ++ ") -> Result<Option<" ++ e.names.entity ++ ">, sqlx::Error>") [
          rowQuery e.names.entity sql, "    " ++ (Key.ofEntity e).binds,
          "    .fetch_optional(&self.pool)", "    .await"]) =
        Event.ofCall ⟨"find", sql, (Key.ofEntity e).names⟩ := by
      rw [read_method [.method "find"]]
      · simp -implicitDefEqProofs only [List.flatMap_cons, List.flatMap_nil, read_line,
          read_rowQuery hentity, read_keyBinds hkey, read_fetchOptional, read_await,
          List.append_nil]
        rfl
      · exact .append (.append (.append (.append (.literal fun _ => rfl))))
    simp only [hfind]
    cases b.features.pagination <;> rfl
  · exact .literal fun _ => rfl
  · exact .append (.append (.append (.append (.literal fun _ => rfl))))

/-- The inputs are bound in the order of the columns. -/
theorem read_inputBinds (hinputs : ∀ f ∈ e.inputFields, ')' ∉ (ident f.name).toList) :
    (inputBinds e).read eventsIn =
      (e.inputFields.map fun f => "&input." ++ ident f.name).map .value := by
  have hbind (f : Field) (hf : f ∈ e.inputFields) :
      eventsIn (unindented ("    .bind(&input." ++ ident f.name ++ ")")) =
        [.value ("&input." ++ ident f.name)] := by
    have hopen : "    .bind(&input." = "    .bind(" ++ "&input." := rfl
    rw [hopen]
    refine read_bind ?_
    rw [String.toList_append, List.mem_append, not_or]
    exact ⟨by decide, hinputs f hf⟩
  rw [inputBinds, read_each, List.map_map]
  simp only [List.flatMap_singleton, read_line]
  rw [List.flatMap_congr hbind]
  exact List.flatMap_pure_eq_map _ _

/-- The methods that write rows run the statements that write rows, each with its values. -/
theorem read_writeMethods (hentity : '(' ∉ e.names.entity.toList)
    (hkey : ∀ name ∈ (Key.ofEntity e).names, ')' ∉ name.toList)
    (hinputs : ∀ f ∈ e.inputFields, ')' ∉ (ident f.name).toList) :
    let inputs := e.inputFields.map fun f => "&input." ++ ident f.name
    let key := (Key.ofEntity e).names
    (writeMethods e st).flatMap (read eventsIn) =
      Event.ofCall ⟨"create", st.insert, inputs⟩ ++
        ((st.update.toList.flatMap fun sql => Event.ofCall ⟨"update", sql, inputs ++ key⟩) ++
          st.delete.toList.flatMap fun sql => Event.ofCall ⟨"delete", sql, key⟩) := by
  -- lines that neither name a method nor hold a statement or a value say nothing
  have hread : eventsIn (unindented "    .execute(&self.pool)") = [] :=
    Says.line (.literal fun _ => rfl)
  have hawait : eventsIn (unindented "    .await?;") = [] := Says.line (.literal fun _ => rfl)
  have haffected : eventsIn (unindented "Ok(result.rows_affected() > 0)") = [] :=
    Says.line (.literal fun _ => rfl)
  dsimp only
  unfold writeMethods
  dsimp only
  simp -implicitDefEqProofs only [toString, List.flatMap_cons, List.flatMap_nil, read_whenSome,
    read_line, read_empty, List.nil_append, List.append_nil]
  rw [read_method [.method "create"]]
  · simp -implicitDefEqProofs only [List.flatMap_cons, List.flatMap_nil, read_line,
      read_rowQuery hentity, read_inputBinds hinputs, read_fetchOne, read_await, List.append_nil]
    -- `update` and `delete` bind the key behind the input
    have hupdate (sql : String) : Code.read eventsIn (block ("pub async fn update(&self, " ++
        (Key.ofEntity e).params ++ ", input: &Update" ++ e.names.entity ++ ")" ++
          (" -> Result<Option<" ++ e.names.entity ++ ">, sqlx::Error>")) [
          rowQuery e.names.entity sql, inputBinds e, "    " ++ (Key.ofEntity e).binds,
          "    .fetch_optional(&self.pool)", "    .await"]) =
        Event.ofCall ⟨"update", sql,
          (e.inputFields.map fun f => "&input." ++ ident f.name) ++ (Key.ofEntity e).names⟩ := by
      rw [read_method [.method "update"]]
      · simp -implicitDefEqProofs only [List.flatMap_cons, List.flatMap_nil, read_line,
          read_rowQuery hentity, read_inputBinds hinputs, read_keyBinds hkey, read_fetchOptional,
          read_await, List.append_nil, ← List.map_append]
        rfl
      · exact .append (.append (.append (.append (.append (.literal fun _ => rfl)))))
    have hdelete (sql : String) : Code.read eventsIn (block ("pub async fn delete(&self, " ++
        (Key.ofEntity e).params ++ ") -> Result<bool, sqlx::Error>") [
          "let result = sqlx::query(" ++ raw sql ++ ")", "    " ++ (Key.ofEntity e).binds,
          "    .execute(&self.pool)", "    .await?;", "Ok(result.rows_affected() > 0)"]) =
        Event.ofCall ⟨"delete", sql, (Key.ofEntity e).names⟩ := by
      rw [read_method [.method "delete"]]
      · simp -implicitDefEqProofs only [List.flatMap_cons, List.flatMap_nil, read_line,
          read_resultQuery, read_keyBinds hkey, hread, hawait, haffected, List.append_nil]
        rfl
      · exact .append (.append (.literal fun _ => rfl))
    simp only [hupdate, hdelete]
    rfl
  · exact .append (.append (.append (.append (.literal fun _ => rfl))))

/-- How the related rows of an entity are loaded: by its columns that the relation goes from. -/
def loaderCall (e : Entity) (r : Relation) : Call :=
  ⟨ident r.name, related r,
    (r.localColumns.filterMap e.field?).map fun f => "&row." ++ ident f.name⟩

/-- The head of a method says its name. -/
theorem says_method {name : String} (h : '(' ∉ name.toList) (more : String) :
    Says eventsIn ("pub async fn " ++ (name ++ ("(" ++ more))) [.method name] := by
  intro rest
  have hhead : "pub async fn ".toList = methodHead := String.toList_ofList
  have hline : ("pub async fn " ++ (name ++ ("(" ++ more))).toList ++ rest =
      methodHead ++ (name.toList ++ '(' :: (more.toList ++ rest)) := by
    simp [hhead]
  have hevents (cs : List Char) : eventsIn ((methodHead ++ cs).dropWhile (· == ' ')) =
      [.method (String.ofList (cs.takeWhile (· != '(')))] := by
    have hdrop : (methodHead ++ cs).dropPrefix? methodHead = some cs :=
      List.dropPrefix?_eq_some_iff.2 ⟨methodHead, rfl, beq_self_eq_true _⟩
    have hstart : (methodHead ++ cs).dropWhile (· == ' ') = methodHead ++ cs := rfl
    rw [hstart, eventsIn, hdrop]
  rw [hline, hevents, Text.takeWhile_ne_append h, String.ofList_toList]

/-- A loader runs the statement of its relation with the values of the columns that refer. -/
theorem read_relationLoader {r : Relation} (hname : '(' ∉ (ident r.name).toList)
    (hrow : '(' ∉ r.targetEntity.toList)
    (hfields : ∀ f ∈ e.fields, ')' ∉ (ident f.name).toList) :
    (relationLoader e r).flatMap (read eventsIn) = Event.ofCall (loaderCall e r) := by
  have hcomment : eventsIn (unindented ("/// Loaded on demand; `" ++ r.targetTable ++
      "` is generated later.")) = [] :=
    Says.line (.append (.append (.literal fun _ => rfl)))
  -- a loader binds the columns of its row, one to a line
  have hbinds : ((r.localColumns.filterMap e.field?).flatMap fun f =>
      eventsIn (unindented ("    .bind(&row." ++ ident f.name ++ ")"))) =
        ((r.localColumns.filterMap e.field?).map fun f => "&row." ++ ident f.name).map .value := by
    have hbind (f : Field) (hf : f ∈ r.localColumns.filterMap e.field?) :
        eventsIn (unindented ("    .bind(&row." ++ ident f.name ++ ")")) =
          [.value ("&row." ++ ident f.name)] := by
      obtain ⟨c, -, hc⟩ := List.mem_filterMap.1 hf
      have hopen : "    .bind(&row." = "    .bind(" ++ "&row." := rfl
      rw [hopen]
      refine read_bind ?_
      rw [String.toList_append, List.mem_append, not_or]
      exact ⟨by decide, hfields f (List.mem_of_find?_eq_some hc)⟩
    rw [List.flatMap_congr hbind, List.map_map]
    exact List.flatMap_pure_eq_map _ _
  -- one row or all of them, which no one reads off the events
  have hfetch : eventsIn (unindented (("    ." ++ if r.kind.isCollection then "fetch_all"
      else "fetch_optional") ++ "(&self.pool)")) = [] := by
    have hall : "    ." ++ "fetch_all" = "    .fetch_all" := rfl
    have hoptional : "    ." ++ "fetch_optional" = "    .fetch_optional" := rfl
    split
    · rw [hall]
      exact Says.line (.append (.literal fun _ => rfl))
    · rw [hoptional]
      exact Says.line (.append (.literal fun _ => rfl))
  have hopen : "(&self, row: &" = "(" ++ "&self, row: &" := rfl
  unfold relationLoader
  dsimp only
  simp -implicitDefEqProofs only [toString, List.flatMap_cons, List.flatMap_nil, read_when,
    read_line, read_empty, List.nil_append, List.append_nil, hcomment, ite_self]
  rw [read_method [.method (ident r.name)]]
  · simp -implicitDefEqProofs only [List.flatMap_cons, List.flatMap_nil, read_line, read_each,
      read_rowQuery hrow, hbinds, hfetch, read_await, List.append_nil]
    rfl
  · rw [hopen]
    simp only [String.append_assoc]
    exact says_method hname _

end Methods

-- ---------------------------------------------------------------------------
-- The repository
-- ---------------------------------------------------------------------------

/-- The methods of a repository that run the statements of its entity. Pages come as numbers, inputs
as the members of a structure, and keys as parameters. -/
def repositoryCalls (b : Blueprint) (e : Entity) : List Call :=
  (Statements.ofEntity e b.features.pagination b.features.softDelete).calls
    (if b.features.pagination then ["limit", "offset"] else [])
    (e.inputFields.map fun f => "&input." ++ ident f.name) (Key.ofEntity e).names

/-- A mark that stands in no name stands in none that is marked as one either. -/
theorem not_mem_ident {name : String} (h : TameName name) {c : Char} (hc : ¬Tame c)
    (hhash : c ≠ '#') : c ∉ (ident name).toList := by
  have hplain : c ∉ name.toList := h.not_mem hc
  have hr : c ≠ 'r' := by
    rintro rfl
    exact hc (by decide)
  rw [ident]
  split
  · rw [String.toList_append, List.mem_append, not_or]
    refine ⟨?_, hplain⟩
    have hmark : "r#".toList = ['r', '#'] := String.toList_ofList
    simp [hmark, hr, hhash]
  · exact hplain

/-- **Repositories.** A repository runs the statements of its entity, each with its values, and then
those that load what its relations lead to. -/
theorem events_repositoryModule {b : Blueprint} {e : Entity} (h : e.Tame) :
    (repositoryModule b e).flatMap (read eventsIn) =
      (repositoryCalls b e ++ e.relations.map (loaderCall e)).flatMap Event.ofCall := by
  have hfields : ∀ f ∈ e.fields, ')' ∉ (ident f.name).toList := fun f hf =>
    not_mem_ident (h.field f hf) (by decide) (by decide)
  have hkey : ∀ name ∈ (Key.ofEntity e).names, ')' ∉ name.toList := by
    intro name hname
    obtain ⟨f, hf, rfl⟩ := List.mem_map.1 hname
    exact hfields f (List.mem_filter.1 hf).1
  have hinputs : ∀ f ∈ e.inputFields, ')' ∉ (ident f.name).toList := fun f hf =>
    hfields f (List.mem_filter.1 hf).1
  have hentity : '(' ∉ e.names.entity.toList := h.entity.not_mem (by decide)
  have hloader (r : Relation) (hr : r ∈ e.relations) :
      (relationLoader e r).flatMap (read eventsIn) = Event.ofCall (loaderCall e r) :=
    read_relationLoader (not_mem_ident (h.loader r hr) (by decide) (by decide))
      ((h.related r hr).not_mem (by decide)) hfields
  have hpool : eventsIn (unindented "use sqlx::PgPool;") = [] := Says.line (.literal fun _ => rfl)
  have hinputImport : eventsIn (unindented (inputImport e)) = [] :=
    Says.line (.append (.append (.append (.append (.append (.append (.literal fun _ => rfl)))))))
  have hrowImport : eventsIn (unindented (rowImport e)) = [] :=
    Says.line (.append (.append (.append (.append (.literal fun _ => rfl)))))
  -- imports and the header of the type say nothing
  have himports : (e.neighbours.flatMap fun x =>
      eventsIn (unindented ("use crate::models::" ++ x.1 ++ "::" ++ x.2 ++ ";"))) = [] :=
    List.flatMap_eq_nil_iff.2 fun _ _ =>
      Says.line (.append (.append (.append (.append (.literal fun _ => rfl)))))
  have hderive : eventsIn (unindented "#[derive(Clone)]") = [] := Says.line (.literal fun _ => rfl)
  have hmember : eventsIn (unindented "pool: PgPool,") = [] := Says.line (.literal fun _ => rfl)
  have hself : eventsIn (unindented "Self \x7b pool \x7d") = [] := Says.line (.literal fun _ => rfl)
  have hnew : Says eventsIn "pub fn new(pool: PgPool) -> Self" [] := .literal fun _ => rfl
  have hloaders : e.relations.flatMap (fun r => (relationLoader e r).flatMap (read eventsIn)) =
      (e.relations.map (loaderCall e)).flatMap Event.ofCall := by
    rw [List.flatMap_map]
    exact List.flatMap_congr hloader
  unfold repositoryModule
  dsimp only
  simp -implicitDefEqProofs only [toString, List.flatMap_cons, List.flatMap_nil, read_each,
    read_line, read_empty, List.nil_append, List.append_nil, hpool, hinputImport, hrowImport,
    himports, hderive]
  rw [read_method [], read_method []]
  · simp -implicitDefEqProofs only [List.flatMap_cons, List.flatMap_nil, read_line, read_empty,
      read_all, read_each, read_method [] hnew, read_readMethods hentity hkey,
      read_writeMethods hentity hkey hinputs, hmember, hself, hloaders, List.nil_append,
      List.append_nil]
    simp only [repositoryCalls, Statements.calls, List.flatMap_append, List.flatMap_cons,
      List.flatMap_map, List.append_assoc]
  · exact .append (.append (.literal fun _ => rfl))
  · exact .append (.append (.literal fun _ => rfl))

end CrudGen.Rust
