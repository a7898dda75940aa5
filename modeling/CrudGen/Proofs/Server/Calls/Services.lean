import CrudGen.Proofs.Server.Calls.Rust
import CrudGen.Proofs.Text.Pieces
import CrudGen.Server.Rust.Service
import CrudGen.Server.TypeScript.Express

/-!
# Calls of services

A service calls the methods of a repository. Which it calls is read from its lines, apart from those
that declare methods of its own, where types of any spelling stand.

Main results:

* `Rust.callees_serviceModule`, `TypeScript.Express.callees_serviceModule` — the methods that a
  service calls, in order.
-/

namespace CrudGen

open Code Naming Sql

-- ---------------------------------------------------------------------------
-- Lines
-- ---------------------------------------------------------------------------

namespace Code

/-- The methods that a line calls that does not start with `declares`. -/
def calleesBeside (declares : List Char) (cs : List Char) : List String :=
  if declares.isPrefixOf cs then [] else calleesFrom none cs

/-- Blanks before a line call nothing. -/
theorem calleesFrom_dropWhile (cs : List Char) :
    calleesFrom none (cs.dropWhile (· == ' ')) = calleesFrom none cs := by
  induction cs with
  | nil => rfl
  | cons c rest ih =>
    rw [List.dropWhile_cons]
    split
    · rename_i hblank
      rw [ih, beq_iff_eq.1 hblank]
      rfl
    · rfl

section Lines

variable {declares : List Char} {a b line : String} {names : List String}

/-- A line that calls nothing. -/
theorem read_silent (h : Calls line []) : calleesBeside declares (unindented line) = [] := by
  rw [calleesBeside, unindented, calleesFrom_dropWhile, h.eq, ite_self]

/-- A line without a parenthesis calls nothing. -/
theorem read_of_not_mem (h : '(' ∉ line.toList) :
    calleesBeside declares (unindented line) = [] := by
  rw [calleesBeside, unindented, calleesFrom_dropWhile, calleesFrom_of_not_mem h, ite_self]

/-- A text that does not start as declarations do. -/
def Acts (declares : List Char) (text : String) : Prop :=
  ∀ rest, declares.isPrefixOf ((text.toList ++ rest).dropWhile (· == ' ')) = false

/-- A literal with a start of its own declares nothing. -/
theorem Acts.literal {cs : List Char}
    (h : ∀ rest, declares.isPrefixOf ((cs ++ rest).dropWhile (· == ' ')) = false) :
    Acts declares (String.ofList cs) := by
  intro rest
  rw [String.toList_ofList, h]

theorem Acts.append (h : Acts declares a) : Acts declares (a ++ b) := by
  intro rest
  rw [String.toList_append, List.append_assoc]
  exact h _

/-- A line that declares nothing calls what its text does. -/
theorem Acts.read (h : Acts declares line) (hcalls : Calls line names) :
    calleesBeside declares (unindented line) = names := by
  have hbeside := h []
  rw [List.append_nil] at hbeside
  rw [calleesBeside, unindented, hbeside, if_neg Bool.false_ne_true, calleesFrom_dropWhile,
    hcalls.eq]

end Lines

end Code

-- ---------------------------------------------------------------------------
-- Services in Rust
-- ---------------------------------------------------------------------------

namespace Rust

/-- The methods that a line of a service calls. Declarations start with `pub `. -/
def calleesIn : List Char → List String :=
  calleesBeside ['p', 'u', 'b', ' ']

/-- The methods that are called to list rows. -/
def listCallees (paged : Bool) : List String :=
  if paged then ["list", "limit", "offset", "count"] else ["list"]

/-- The methods that are called to find a row. -/
def getCallees (caching : Bool) : List String :=
  (if caching then ["get"] else []) ++
    "find" :: "ok_or" :: if caching then ["put", "clone"] else []

/-- The methods that are called to change a row. -/
def updateCallees (caching : Bool) : List String :=
  (if caching then ["evict"] else []) ++ ["update", "ok_or"]

/-- The methods that are called to delete a row. -/
def deleteCallees (caching : Bool) : List String :=
  (if caching then ["evict"] else []) ++ ["delete"]

/-- A block is read as its head and then as its body. -/
theorem read_block (head : String) (body : List Code) : (block head body).read calleesIn =
    calleesIn (unindented (head ++ " \x7b")) ++ body.flatMap (read calleesIn) := by
  have hclose : calleesIn (unindented ("\x7d" ++ "")) = [] :=
    read_silent (calls_of_not_mem (by decide))
  rw [block, Code.read_block (by decide) hclose]

/-- A method is read as its body, since its head calls nothing. -/
theorem read_declared {head : String} {body : List Code} (h : Says calleesIn head []) :
    (block head body).read calleesIn = body.flatMap (read calleesIn) := by
  rw [read_block, h.append.line, List.nil_append]

/-- The method that lists rows calls the list, and the count if pages are asked for. -/
theorem read_listMethod (b : Blueprint) (name : String) :
    (listMethod b name).read calleesIn = listCallees b.features.pagination := by
  have hpage : calleesIn (unindented
      "let items = self.repository.list(params.limit(), params.offset()).await?;") =
        ["list", "limit", "offset"] := Acts.read (.literal fun _ => rfl) (.literal fun _ => rfl)
  have htotal : calleesIn (unindented "let total = self.repository.count().await?;") = ["count"] :=
    Acts.read (.literal fun _ => rfl) (.literal fun _ => rfl)
  have hanswer : calleesIn (unindented "Ok(Page::new(items, total, &params))") = [] :=
    read_silent (.literal fun _ => rfl)
  have hall : calleesIn (unindented "Ok(self.repository.list().await?)") = ["list"] :=
    Acts.read (.literal fun _ => rfl) (.literal fun _ => rfl)
  unfold listMethod
  -- a page asks for rows and their number, a list for the rows only
  split
  · rename_i hpaged
    rw [read_declared, hpaged]
    · simp -implicitDefEqProofs only [List.flatMap_cons, List.flatMap_nil, read_line, hpage, htotal,
        hanswer]
      rfl
    · exact .append (.append (.literal fun _ => rfl))
  · rename_i hpaged
    rw [read_declared, listCallees, if_neg hpaged]
    · simp -implicitDefEqProofs only [List.flatMap_cons, List.flatMap_nil, read_line, hall,
        List.append_nil]
    · exact .append (.append (.literal fun _ => rfl))

section Methods

variable {caching : Bool} {name : String} {key : Key}

/-- No call is made among the arguments of a key. -/
theorem dot_not_mem_args (h : ∀ n ∈ key.names, '.' ∉ n.toList) : '.' ∉ key.args.toList := by
  intro hmem
  rw [Key.args, String.toList_intercalate] at hmem
  rcases Text.exists_of_mem_intercalate hmem with hcomma | ⟨text, htext, hdot⟩
  · exact absurd hcomma (by decide)
  · obtain ⟨n, hn, rfl⟩ := List.mem_map.1 htext
    exact h n hn hdot

/-- No call is made in the key of a cache. -/
theorem dot_not_mem_cacheKey (h : ∀ n ∈ key.names, '.' ∉ n.toList) :
    '.' ∉ key.cacheKey.toList := by
  have hhole : '.' ∉ "\x7b\x7d".toList := by decide
  have hholes : '.' ∉ ("/".intercalate (key.fields.map fun _ => "\x7b\x7d")).toList := by
    intro hmem
    rw [String.toList_intercalate] at hmem
    rcases Text.exists_of_mem_intercalate hmem with hslash | ⟨text, htext, hdot⟩
    · exact absurd hslash (by decide)
    · rw [List.map_map] at htext
      obtain ⟨f, -, rfl⟩ := List.mem_map.1 htext
      exact hhole hdot
  unfold Key.cacheKey
  simp only [String.toList_append, List.mem_append, not_or]
  exact ⟨⟨⟨⟨by decide, hholes⟩, by decide⟩, dot_not_mem_args h⟩, by decide⟩

/-- A row is dropped from the cache if there is one. -/
theorem read_evict (h : ∀ n ∈ key.names, '.' ∉ n.toList) :
    (evict caching key).read calleesIn = if caching then ["evict"] else [] := by
  have hline : calleesIn (unindented ("self.cache.evict(&" ++ key.cacheKey ++ ");")) = ["evict"] :=
    Acts.read (.append (.append (.literal fun _ => rfl)))
      (.silent (.silent (.literal fun _ => rfl) (calls_of_not_mem (dot_not_mem_cacheKey h)))
        (.literal fun _ => rfl))
  unfold evict
  simp -implicitDefEqProofs only [toString, read_when, List.flatMap_singleton, read_line, hline]

/-- The method that gets a row asks the cache first, if there is one. -/
theorem read_getMethod (h : ∀ n ∈ key.names, '.' ∉ n.toList) :
    (getMethod caching name key).read calleesIn = getCallees caching := by
  -- names of keys have no dot, so what is spelled with them calls nothing
  have hkey : calleesIn (unindented ("let key = " ++ key.cacheKey ++ ";")) = [] :=
    read_silent (.silent (.silent (.literal fun _ => rfl)
      (calls_of_not_mem (dot_not_mem_cacheKey h))) (.literal fun _ => rfl))
  have hget : (block "if let Some(hit) = self.cache.get(&key)" ["return Ok(hit);"]).read calleesIn =
      ["get"] := by
    have hhead : calleesIn (unindented ("if let Some(hit) = self.cache.get(&key)" ++ " \x7b")) =
        ["get"] :=
      Acts.read (.append (.literal fun _ => rfl))
        (.silent (.literal fun _ => rfl) (.literal fun _ => rfl))
    have hreturn : calleesIn (unindented "return Ok(hit);") = [] :=
      read_silent (.literal fun _ => rfl)
    rw [read_block, hhead, List.flatMap_singleton, read_line, hreturn]
    rfl
  have hrow : calleesIn (unindented "let row = self") = [] := read_silent (.literal fun _ => rfl)
  have hrepository : calleesIn (unindented "    .repository") = [] := read_literal rfl
  have hfind : calleesIn (unindented ("    .find(" ++ key.args ++ ")")) = ["find"] :=
    Acts.read (.append (.append (.literal fun _ => rfl)))
      (.silent (.silent (.literal fun _ => rfl) (calls_of_not_mem (dot_not_mem_args h)))
        (.literal fun _ => rfl))
  have hawait : calleesIn (unindented "    .await?") = [] := read_literal rfl
  have hfound : calleesIn (unindented "    .ok_or(ApiError::NotFound)?;") = ["ok_or"] :=
    Acts.read (.literal fun _ => rfl) (.literal fun _ => rfl)
  have hput : calleesIn (unindented "self.cache.put(key, row.clone());") = ["put", "clone"] :=
    Acts.read (.literal fun _ => rfl) (.literal fun _ => rfl)
  have hanswer : calleesIn (unindented "Ok(row)") = [] := read_silent (.literal fun _ => rfl)
  unfold getMethod
  rw [read_declared]
  · simp -implicitDefEqProofs only [toString, List.flatMap_cons, List.flatMap_nil, read_when,
      read_line, hkey, hget, hrow, hrepository, hfind, hawait, hfound, hput, hanswer,
      List.nil_append, List.append_nil]
    cases caching <;> rfl
  · exact .append (.append (.append (.append (.literal fun _ => rfl))))

/-- The method that changes a row drops it from the cache. -/
theorem read_updateMethod (h : ∀ n ∈ key.names, '.' ∉ n.toList) :
    (updateMethod caching name key).read calleesIn = updateCallees caching := by
  have hrepository : calleesIn (unindented "self.repository") = [] := read_literal rfl
  have hupdate : calleesIn (unindented ("    .update(" ++ key.args ++ ", &input)")) = ["update"] :=
    Acts.read (.append (.append (.literal fun _ => rfl)))
      (.silent (.silent (.literal fun _ => rfl) (calls_of_not_mem (dot_not_mem_args h)))
        (.literal fun _ => rfl))
  have hawait : calleesIn (unindented "    .await?") = [] := read_literal rfl
  have hfound : calleesIn (unindented "    .ok_or(ApiError::NotFound)") = ["ok_or"] :=
    Acts.read (.literal fun _ => rfl) (.literal fun _ => rfl)
  unfold updateMethod
  rw [read_declared]
  · simp -implicitDefEqProofs only [toString, List.flatMap_cons, List.flatMap_nil, read_evict h,
      read_line, hrepository, hupdate, hawait, hfound, List.nil_append, List.append_nil]
    rfl
  · exact .append (.append (.append (.append (.append (.literal fun _ => rfl)))))

theorem read_deleteMethod (h : ∀ n ∈ key.names, '.' ∉ n.toList) :
    (deleteMethod caching key).read calleesIn = deleteCallees caching := by
  have hdelete : calleesIn (unindented ("if self.repository.delete(" ++ key.args ++ ").await?" ++
      " \x7b")) = ["delete"] :=
    Acts.read (.append (.append (.append (.literal fun _ => rfl))))
      (.silent (.silent (.silent (.literal fun _ => rfl) (calls_of_not_mem (dot_not_mem_args h)))
        (.literal fun _ => rfl)) (.literal fun _ => rfl))
  have hstep : ∀ c ∈ "    ".toList, c = ' ' := by decide
  have hclose : calleesIn (unindented ("\x7d" ++ "")) = [] :=
    read_silent (calls_of_not_mem (by decide))
  have hdone : calleesIn (unindented "Ok(())") = [] := read_silent (.literal fun _ => rfl)
  have hmissing : calleesIn (unindented "Err(ApiError::NotFound)") = [] :=
    read_silent (.literal fun _ => rfl)
  have helse : calleesIn (unindented ("\x7d " ++ "else" ++ " \x7b")) = [] :=
    read_silent (calls_of_not_mem (by decide))
  unfold deleteMethod
  rw [read_declared]
  -- only the test calls the repository, and the cache is evicted behind it
  · simp -implicitDefEqProofs only [toString, List.flatMap_cons, List.flatMap_nil, read_evict h,
      Rust.blocks, read_blocks hstep hclose, read_line, hdelete, hdone, hmissing, helse,
      List.append_nil]
    rfl
  · exact .append (.append (.literal fun _ => rfl))

end Methods

/-- The methods that a service calls, in order: with pages, with a cache, for an entity with a key,
and for one whose rows can be changed. -/
def calleesOf (paged caching keyed updatable : Bool) : List String :=
  listCallees paged ++ ((if keyed then getCallees caching else []) ++
    "create" :: ((if updatable then updateCallees caching else []) ++
      if keyed then deleteCallees caching else []))

/-- Among them are those that get at single rows exactly if there is a key, or if rows can be
changed. -/
theorem mem_calleesOf : ∀ paged caching keyed updatable : Bool,
    let callees := calleesOf paged caching keyed updatable
    ("find" ∈ callees ↔ keyed = true) ∧ ("update" ∈ callees ↔ updatable = true) ∧
      ("delete" ∈ callees ↔ keyed = true) := by
  decide

/-- A service is made from a repository of its own. -/
theorem read_constructor {name : String} (h : '.' ∉ name.toList) (caching : Bool) :
    (block "pub fn new(pool: PgPool) -> Self" [
      block "Self" [
        "repository: " ++ name ++ "Repository::new(pool),",
        when caching ["cache: Cache::default(),"]]]).read calleesIn = [] := by
  have hself : calleesIn (unindented ("Self" ++ " \x7b")) = [] :=
    read_silent (.silent (.literal fun _ => rfl) (.literal fun _ => rfl))
  have hrepository :
      calleesIn (unindented ("repository: " ++ name ++ "Repository::new(pool),")) = [] :=
    read_silent (calls_of_not_mem (by simp [h]))
  have hcache : calleesIn (unindented "cache: Cache::default(),") = [] :=
    read_silent (.literal fun _ => rfl)
  rw [read_declared (.literal fun _ => rfl), List.flatMap_singleton, read_block, hself]
  simp -implicitDefEqProofs only [List.flatMap_cons, List.flatMap_nil, read_when, read_line,
    hrepository, hcache, List.append_nil, ite_self]

/-- **Services.** What a service calls. -/
theorem callees_serviceModule {b : Blueprint} {e : Entity} (h : e.Tame) :
    (serviceModule b e).flatMap (read calleesIn) = calleesOf b.features.pagination
      (b.features.caching && (Key.ofEntity e).exists?) (Key.ofEntity e).exists?
      (isUpdatable e) := by
  have hentity := h.entity.not_mem (by decide : ¬Tame '.')
  have hfile := h.file.not_mem (by decide : ¬Tame '.')
  have hkey : ∀ n ∈ (Key.ofEntity e).names, '.' ∉ n.toList := by
    intro n hn
    obtain ⟨f, hf, rfl⟩ := List.mem_map.1 hn
    exact not_mem_ident (h.field f (List.mem_filter.1 hf).1) (by decide) (by decide)
  -- a line without a dot calls nothing
  have hquiet {line : String} (hline : '.' ∉ line.toList) : calleesIn (unindented line) = [] :=
    read_silent (calls_of_not_mem hline)
  have hinput : calleesIn (unindented (inputImport e)) = [] := by
    refine hquiet ?_
    unfold inputImport
    simp [toString, hentity, hfile]
  have hrow : calleesIn (unindented (rowImport e)) = [] := by
    refine hquiet ?_
    unfold rowImport
    simp [toString, hentity, hfile]
  have hcache : calleesIn (unindented "use crate::cache::Cache;") = [] :=
    read_silent (.literal fun _ => rfl)
  -- without a cache the lines about it are absent, and with them their calls
  have herror : calleesIn (unindented "use crate::error::ApiError;") = [] :=
    read_silent (.literal fun _ => rfl)
  have hpage : calleesIn (unindented "use crate::pagination::\x7bPage, PageParams\x7d;") = [] :=
    read_silent (.literal fun _ => rfl)
  have hpool : calleesIn (unindented "use sqlx::PgPool;") = [] := read_silent (.literal fun _ => rfl)
  have hempty : calleesIn (unindented "") = [] := read_literal rfl
  have hderive : calleesIn (unindented "#[derive(Clone)]") = [] :=
    read_silent (.literal fun _ => rfl)
  have hrepository : calleesIn (unindented ("use crate::repositories::" ++ e.names.file ++ "::" ++
      e.names.entity ++ "Repository;")) = [] :=
    hquiet (by simp [hentity, hfile])
  have hmember : calleesIn (unindented ("repository: " ++ e.names.entity ++ "Repository,")) = [] :=
    hquiet (by simp [hentity])
  have hmemberCache : calleesIn (unindented ("cache: Cache<" ++ e.names.entity ++ ">,")) = [] :=
    hquiet (by simp [hentity])
  have himpl : calleesIn (unindented ("impl " ++ e.names.entity ++ "Service" ++ " \x7b")) = [] :=
    hquiet (by simp [hentity])
  have hown : calleesIn (unindented "&self.repository") = [] := read_literal rfl
  have hcreate : calleesIn (unindented "Ok(self.repository.create(&input).await?)") = ["create"] :=
    Acts.read (.literal fun _ => rfl) (.literal fun _ => rfl)
  unfold serviceModule
  dsimp only
  simp -implicitDefEqProofs only [toString, List.flatMap_cons, List.flatMap_nil, read_when,
    read_line, hinput, hrow, hcache, herror, hpage, hpool, hempty, hderive, hrepository,
    List.nil_append, List.append_nil, ite_self]
  rw [read_declared, read_block, himpl]
  · simp -implicitDefEqProofs only [List.flatMap_cons, List.flatMap_nil, read_when, read_line,
      hmember, hmemberCache, hempty, List.nil_append, List.append_nil, ite_self,
      read_getMethod hkey, read_updateMethod hkey, read_deleteMethod hkey, read_listMethod]
    rw [read_constructor hentity, read_declared, read_declared]
    · simp -implicitDefEqProofs only [List.flatMap_singleton, read_line, hown, hcreate,
        List.nil_append]
      rfl
    · exact .append (.append (.append (.append (.literal fun _ => rfl))))
    · exact .append (.append (.literal fun _ => rfl))
  · exact .append (.append (.literal fun _ => rfl))

end Rust

-- ---------------------------------------------------------------------------
-- Services for Express
-- ---------------------------------------------------------------------------

namespace TypeScript.Express

/-- The methods that a line of a service calls. Declarations with keys start with `async `. -/
def calleesIn : List Char → List String :=
  calleesBeside ['a', 's', 'y', 'n', 'c', ' ']

/-- The methods that are called to list rows. -/
def listCallees (paged : Bool) : List String :=
  if paged then ["all", "list", "count"] else ["list"]

/-- The methods that a service calls, in order: with pages, for an entity with a key, and for one
whose rows can be changed. -/
def calleesOf (paged keyed updatable : Bool) : List String :=
  listCallees paged ++ ((if keyed then ["find"] else []) ++
    "create" :: ((if updatable then ["update"] else []) ++ if keyed then ["delete"] else []))

/-- Among them are those that get at single rows exactly if there is a key, or if rows can be
changed. -/
theorem mem_calleesOf : ∀ paged keyed updatable : Bool,
    let callees := calleesOf paged keyed updatable
    ("find" ∈ callees ↔ keyed = true) ∧ ("update" ∈ callees ↔ updatable = true) ∧
      ("delete" ∈ callees ↔ keyed = true) := by
  decide

/-- A block is read as its head and then as its body. -/
theorem read_block (head : String) (body : List Code) : (block head body).read calleesIn =
    calleesIn (unindented (head ++ " \x7b")) ++ body.flatMap (read calleesIn) := by
  have hclose : calleesIn (unindented ("\x7d" ++ "")) = [] :=
    read_silent (.silent (.literal fun _ => rfl) (.literal fun _ => rfl))
  rw [block, Code.read_block (by decide) hclose]

/-- A method is read as its body, since its head calls nothing. -/
theorem read_declared {head : String} {body : List Code} (h : Says calleesIn head []) :
    (block head body).read calleesIn = body.flatMap (read calleesIn) := by
  rw [read_block, h.append.line, List.nil_append]

section Methods

variable {b : Blueprint} {e : Entity} (hentity : '.' ∉ e.names.entity.toList)

/-- No call is made among the arguments of a key. -/
theorem dot_not_mem_keyArgs (h : ∀ f ∈ e.fields, '.' ∉ f.name.toList) :
    '.' ∉ (keyArgs e).toList := by
  intro hmem
  rw [keyArgs, keyNames, String.toList_intercalate] at hmem
  rcases Text.exists_of_mem_intercalate hmem with hcomma | ⟨text, htext, hdot⟩
  · exact absurd hcomma (by decide)
  · rw [List.map_map] at htext
    obtain ⟨f, hf, rfl⟩ := List.mem_map.1 htext
    exact h f (List.mem_filter.1 hf).1 hdot

include hentity

/-- The method that lists rows calls the list, and the count if pages are asked for. -/
theorem read_listMethod : (listMethod b e).read calleesIn = listCallees b.features.pagination := by
  have hboth : calleesIn (unindented "const [items, total] = await Promise.all([") = ["all"] :=
    Acts.read (.literal fun _ => rfl) (.literal fun _ => rfl)
  have hlist : calleesIn (unindented "  this.repository.list(params.limit, params.offset),") =
      ["list"] :=
    Acts.read (.literal fun _ => rfl) (.literal fun _ => rfl)
  have hcount : calleesIn (unindented "  this.repository.count(),") = ["count"] :=
    Acts.read (.literal fun _ => rfl) (.literal fun _ => rfl)
  have hclose : calleesIn (unindented "]);") = [] := read_silent (.literal fun _ => rfl)
  have hanswer : calleesIn (unindented
      "return \x7b items, total, page: params.page, perPage: params.limit \x7d;") = [] :=
    read_silent (.literal fun _ => rfl)
  have hall : calleesIn (unindented "return this.repository.list();") = ["list"] :=
    Acts.read (.literal fun _ => rfl) (.literal fun _ => rfl)
  have hhead :
      calleesIn (unindented ("list(): Promise<" ++ e.names.entity ++ "[]>" ++ " \x7b")) = [] :=
    read_silent (calls_of_not_mem (by simp [hentity]))
  unfold listMethod
  dsimp only
  -- a page asks for the rows and for their number
  split
  · rename_i hpaged
    rw [read_declared, hpaged]
    · simp -implicitDefEqProofs only [List.flatMap_cons, List.flatMap_nil, read_line, hboth, hlist,
        hcount, hclose, hanswer]
      rfl
    · exact .append (.append (.literal fun _ => rfl))
  · rename_i hpaged
    simp -implicitDefEqProofs only [toString, read_block, hhead, List.flatMap_singleton, read_line,
      hall, List.nil_append]
    rw [listCallees, if_neg hpaged]

/-- No call is made in an error. -/
theorem dot_not_mem_notFound : '.' ∉ (notFound e).toList := by
  have hliteral : '.' ∉ (literal e.names.entity).toList := by
    intro hmem
    rcases Text.mem_backslashed hmem with h | h | h
    · exact absurd h (by decide)
    · exact absurd h (by decide)
    · exact hentity h
  unfold notFound
  simp [hliteral]

/-- A method that gives back a row calls what the row comes from. -/
theorem read_rowMethod {head call : String} {names : List String} (hhead : Says calleesIn head [])
    (hcall : calleesIn (unindented ("const row = await this.repository." ++ call ++ ";")) = names) :
    (rowMethod e head call).flatMap (read calleesIn) = names := by
  have hempty : calleesIn (unindented "") = [] := read_literal rfl
  have hmissing : calleesIn (unindented ("if (!row) " ++ notFound e)) = [] :=
    read_silent (.silent (.literal fun _ => rfl) (calls_of_not_mem (dot_not_mem_notFound hentity)))
  have hanswer : calleesIn (unindented "return row;") = [] := read_silent (.literal fun _ => rfl)
  unfold rowMethod
  simp -implicitDefEqProofs only [toString, List.flatMap_cons, List.flatMap_nil, read_line, hempty,
    List.nil_append, List.append_nil]
  rw [read_declared hhead.append]
  simp -implicitDefEqProofs only [List.flatMap_cons, List.flatMap_nil, read_line, hcall, hmissing,
    hanswer, List.append_nil]

end Methods

/-- **Services.** What a service calls. -/
theorem callees_serviceModule {b : Blueprint} {e : Entity} (h : e.Tame) :
    (serviceModule b e).flatMap (read calleesIn) = calleesOf b.features.pagination
      (!e.keyFields.isEmpty) (!e.keyFields.isEmpty && !e.inputFields.isEmpty) := by
  have hentity := h.entity.not_mem (by decide : ¬Tame '.')
  have hargs := dot_not_mem_keyArgs fun f hf => (h.field f hf).not_mem (by decide)
  -- `get` and `update` differ in the call they await
  have hget : (rowMethod e ("async get(" ++ keyParams e ++ ")") ("find(" ++ keyArgs e ++ ")")).flatMap
      (read calleesIn) = ["find"] := by
    have hopen : "const row = await this.repository." ++ "find(" =
        "const row = await this.repository.find(" := rfl
    refine read_rowMethod hentity (.append (.append (.literal fun _ => rfl))) ?_
    simp only [← String.append_assoc]
    rw [hopen]
    exact Acts.read (.append (.append (.append (.literal fun _ => rfl))))
      (.silent (.silent (.silent (.literal fun _ => rfl) (calls_of_not_mem hargs))
        (.literal fun _ => rfl)) (.literal fun _ => rfl))
  have hupdate : (rowMethod e ("async update(" ++ keyParams e ++ ", input: Update" ++
      e.names.entity ++ "Dto)") ("update(" ++ keyArgs e ++ ", input)")).flatMap (read calleesIn) =
        ["update"] := by
    have hopen : "const row = await this.repository." ++ "update(" =
        "const row = await this.repository.update(" := rfl
    refine read_rowMethod hentity (.append (.append (.append (.append (.literal fun _ => rfl))))) ?_
    simp only [← String.append_assoc]
    rw [hopen]
    exact Acts.read (.append (.append (.append (.literal fun _ => rfl))))
      (.silent (.silent (.silent (.literal fun _ => rfl) (calls_of_not_mem hargs))
        (.literal fun _ => rfl)) (.literal fun _ => rfl))
  -- imports call nothing for want of a bracket
  have hentityBracket : '(' ∉ e.names.entity.toList := h.entity.not_mem (by decide)
  have hfileBracket : '(' ∉ e.names.file.toList := h.file.not_mem (by decide)
  have hdto : calleesIn (unindented ("import \x7b Create" ++ e.names.entity ++ "Dto, Update" ++
      e.names.entity ++ "Dto \x7d from '../dto/" ++ e.names.file ++ ".dto';")) = [] :=
    read_of_not_mem (by simp [hentityBracket, hfileBracket])
  have herror : calleesIn (unindented "import \x7b NotFoundError \x7d from '../middleware/error';") =
      [] :=
    read_literal rfl
  have hmodel : calleesIn (unindented ("import \x7b " ++ e.names.entity ++ " \x7d from '../models/" ++
      e.names.file ++ "';")) = [] :=
    read_of_not_mem (by simp [hentityBracket, hfileBracket])
  have hpage :
      calleesIn (unindented "import \x7b Page, PageParams \x7d from '../pagination';") = [] :=
    read_literal rfl
  have hrepository : calleesIn (unindented ("import \x7b " ++ e.names.entity ++
      "Repository \x7d from '../repositories/" ++ e.names.file ++ ".repository';")) = [] :=
    read_of_not_mem (by simp [hentityBracket, hfileBracket])
  have hclass :
      calleesIn (unindented ("export class " ++ e.names.entity ++ "Service" ++ " \x7b")) = [] :=
    read_silent (calls_of_not_mem (by simp [hentity]))
  have hconstructor : calleesIn (unindented ("constructor(private readonly repository = new " ++
      e.names.entity ++ "Repository()) \x7b\x7d")) = [] :=
    read_silent (calls_of_not_mem (by simp [hentity]))
  have hempty : calleesIn (unindented "") = [] := read_literal rfl
  have hcreate : (block ("create(input: Create" ++ e.names.entity ++ "Dto): Promise<" ++
      e.names.entity ++ ">") ["return this.repository.create(input);"]).read calleesIn =
        ["create"] := by
    have hhead : calleesIn (unindented ("create(input: Create" ++ e.names.entity ++
        "Dto): Promise<" ++ e.names.entity ++ ">" ++ " \x7b")) = [] :=
      read_silent (calls_of_not_mem (by simp [hentity]))
    have hcall : calleesIn (unindented "return this.repository.create(input);") = ["create"] :=
      Acts.read (.literal fun _ => rfl) (.literal fun _ => rfl)
    rw [read_block, hhead, List.flatMap_singleton, read_line, hcall, List.nil_append]
  have hdelete : (block ("async delete(" ++ keyParams e ++ "): Promise<void>") [
      "if (!(await this.repository.delete(" ++ keyArgs e ++ "))) " ++ notFound e]).read calleesIn =
        ["delete"] := by
    rw [read_declared, List.flatMap_singleton, read_line]
    · exact Acts.read (.append (.append (.append (.literal fun _ => rfl))))
        (.silent (.silent (.silent (.literal fun _ => rfl) (calls_of_not_mem hargs))
          (.literal fun _ => rfl)) (calls_of_not_mem (dot_not_mem_notFound hentity)))
    · exact .append (.append (.literal fun _ => rfl))
  unfold serviceModule
  dsimp only
  simp -implicitDefEqProofs only [toString, List.flatMap_cons, List.flatMap_nil, read_when,
    read_line, hdto, herror, hmodel, hpage, hrepository, List.nil_append, List.append_nil, ite_self]
  rw [read_block, hclass]
  simp -implicitDefEqProofs only [List.flatMap_cons, List.flatMap_nil, read_when, read_line, hempty,
    hconstructor, read_listMethod hentity, hget, hcreate, hupdate, hdelete, List.nil_append,
    List.append_nil]
  rfl

end TypeScript.Express

end CrudGen
