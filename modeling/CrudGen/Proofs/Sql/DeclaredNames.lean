import CrudGen.Proofs.Sql.Chunks
import CrudGen.Proofs.Sql.Layout

/-!
# Names as they are written

A bare word of a script is read as a keyword, if it is one in any letter case, and otherwise as a
name. Where a keyword stands for a name after all, what is kept is the one spelling that the keyword
has, in lower case.

Main results:

* `nameOf?_ofWord`, `keptAs_eq_iff` — which name a bare word is, and when this is the word itself.
* `token_of_bare` — a token that is written as a bare word, if it is a name, is the token of that
  word.
* `exists_starts` — every column of a table is read from a token of its own.
* `declared_as_written` — the table and the columns are called by the words that they are written
  as, unless these are keywords that are not in lower case.
-/

namespace CrudGen.Sql

open Lexer Text

-- ---------------------------------------------------------------------------
-- Words
-- ---------------------------------------------------------------------------

/-- The words that are keywords or types that number themselves, in upper case, with the name that
each of them is. -/
def reserved : List (String × String) :=
  [("AUTO_INCREMENT", "increment"), ("AUTOINCREMENT", "increment")] ++
    (Keyword.all.map Keyword.text ++ Token.serialNames).map fun word => (word, toLower word)

/-- The name that a bare word is. -/
def keptAs (word : String) : String :=
  (reserved.lookup (toUpper word)).getD word

/-- Each word is found with what it is mapped to. -/
theorem lookup_map_self (f : String → String) (words : List String) (word : String) :
    (words.map fun w => (w, f w)).lookup word =
      if words.contains word then some (f word) else none := by
  induction words with
  | nil => rfl
  | cons w rest ih =>
    rw [List.map_cons, List.lookup_cons, ih, List.contains_cons]
    cases hw : word == w with
    | false => rfl
    | true =>
      rw [beq_iff_eq] at hw
      simp [hw]

/-- A keyword is found by its text. -/
theorem find?_text_cases (upper : String) :
    (∃ k, (Keyword.all.find? fun k => k.text == upper) = some k ∧ k.text = upper ∧
      (Keyword.all.map Keyword.text).contains upper = true) ∨
    (Keyword.all.find? fun k => k.text == upper) = none ∧
      (Keyword.all.map Keyword.text).contains upper = false := by
  cases hfind : Keyword.all.find? fun k => k.text == upper with
  | some k =>
    have htext : k.text = upper := by simpa using List.find?_some hfind
    exact .inl ⟨k, rfl, htext, List.contains_iff_mem.2
      (List.mem_map.2 ⟨k, List.mem_of_find?_eq_some hfind, htext⟩)⟩
  | none =>
    refine .inr ⟨rfl, Bool.eq_false_iff.2 fun hmem => ?_⟩
    obtain ⟨k, hk, htext⟩ := List.mem_map.1 (List.contains_iff_mem.1 hmem)
    exact List.find?_eq_none.1 hfind k hk (beq_iff_eq.2 htext)

/-- A bare word is the name that it is kept as. -/
theorem nameOf?_ofWord (word : String) : Parser.nameOf? (ofWord word) = some (keptAs word) := by
  have hcounter : toLower Keyword.increment.text = "increment" := by decide +kernel
  rw [ofWord, keptAs]
  generalize toUpper word = upper
  -- the two spellings of `AUTO_INCREMENT` are one keyword, with the text of a third
  by_cases hauto : upper = "AUTO_INCREMENT" ∨ upper = "AUTOINCREMENT"
  · rcases hauto with rfl | rfl <;>
      simp [Keyword.ofUpper?, Parser.nameOf?, reserved, List.lookup_cons, hcounter]
  · rw [not_or] at hauto
    have hkeyword : Keyword.ofUpper? upper = Keyword.all.find? fun k => k.text == upper := by
      simp [Keyword.ofUpper?, hauto]
    have hlookup : reserved.lookup upper =
        if (Keyword.all.map Keyword.text ++ Token.serialNames).contains upper then
          some (toLower upper) else none := by
      rw [reserved, List.lookup_append, lookup_map_self, List.lookup_cons,
        beq_false_of_ne hauto.1, List.lookup_cons, beq_false_of_ne hauto.2]
      rfl
    rw [hkeyword, hlookup, List.contains_append]
    -- a keyword is kept by its own text, a serial and any other word as it was written
    obtain ⟨k, hk, htext, hmem⟩ | ⟨hnone, hmem⟩ := find?_text_cases upper
    · rw [hk, hmem]
      simp [Parser.nameOf?, htext]
    · rw [hnone, hmem, Bool.false_or]
      dsimp only
      cases Token.serialNames.contains upper <;> rfl

/-- A bare word is kept as it is unless it is reserved and spelled in another way than it is kept. -/
theorem keptAs_eq_iff (word : String) :
    keptAs word = word ↔ ∀ entry ∈ reserved, entry.1 = toUpper word → entry.2 = word := by
  have hfound : ∀ entry ∈ reserved, reserved.lookup entry.1 = some entry.2 := by decide +kernel
  rw [keptAs]
  constructor
  · intro hkept entry hentry hword
    rwa [← hword, hfound entry hentry, Option.getD_some] at hkept
  · intro hall
    cases hlookup : reserved.lookup (toUpper word) with
    | none => rfl
    | some kept =>
      obtain ⟨before, after, hsplit, -⟩ := List.lookup_eq_some_iff.1 hlookup
      exact hall (toUpper word, kept) (by simp [hsplit]) rfl

-- ---------------------------------------------------------------------------
-- Tokens and their text
-- ---------------------------------------------------------------------------

/-- A token stands where it is read. -/
theorem scan_mem {start : Nat} {cs : List Char} {t : Located} (ht : t ∈ scan start cs)
    (heof : t.token ≠ .eof) : ∃ before c rest, cs = before ++ c :: rest ∧
      (next c rest).1 = some t.token ∧ t.start = start + byteLength before ∧
        t.stop = t.start + byteLength (c :: rest.take (next c rest).2) := by
  match cs with
  | [] =>
    rw [scan, List.mem_singleton] at ht
    rw [ht] at heof
    exact absurd rfl heof
  | c :: rest =>
    rw [scan_cons, List.mem_append] at ht
    obtain ht | ht := ht
    · obtain ⟨token, htoken, rfl⟩ := List.mem_map.1 ht
      exact ⟨[], c, rest, rfl, Option.mem_toList.1 htoken, rfl, rfl⟩
    · obtain ⟨before, d, more, hsplit, htoken, hstart, hstop⟩ := scan_mem ht heof
      refine ⟨c :: (rest.take (next c rest).2 ++ before), d, more, ?_, htoken, ?_, hstop⟩
      · rw [List.cons_append, List.append_assoc, ← hsplit, List.take_append_drop]
      · rw [hstart, ← List.cons_append, byteLength_append, Nat.add_assoc]
termination_by cs.length
decreasing_by
  simp only [List.length_drop, List.length_cons]
  omega

/-- Whether a character may stand in a bare word. -/
def isBare (c : Char) : Bool :=
  isAlphanumeric c || c == '_'

/-- A token is written as a bare word. -/
structure WrittenAs (script : String) (t : Located) (word : String) : Prop where
  source : Slice script.toList t.start t.stop word.toList
  bare   : word.toList.all isBare = true

/-- A name that begins with a letter, a digit or an underscore is a word. -/
theorem startsWord_of_next {c : Char} {rest : List Char} {t : Token}
    (h : (next c rest).1 = some t) (hname : (Parser.nameOf? t).isSome) (hc : isBare c = true) :
    startsWord c = true := by
  have hmarks : marks.all (fun c => !isBare c) = true := by decide +kernel
  have hspecial : "-/#:(),;.['$\"`".toList = marks := by decide +kernel
  have hblank : isBlank c = false := by
    cases hblank : isBlank c with
    | false => rfl
    | true => simp [next_of_isBlank hblank] at h
  have hmark : c ∉ marks := fun hmem => by
    simpa [hc] using List.all_eq_true.1 hmarks c hmem
  have hother : marks.contains c = false := by simpa using hmark
  rw [next_eq hmark hblank] at h
  dsimp only at h
  -- what is neither a blank nor a mark is a digit, a letter or no token
  split at h
  · cases h
    cases hname
  · rename_i hdigit
    split at h
    · rename_i hletter
      rw [Bool.not_eq_true] at hdigit
      rw [startsWord, hblank, hspecial, hother, hdigit, hletter]
      rfl
    · split at h
      · cases h
        cases hname
      · cases h

/-- A name that is written as a bare word is what the word is read as. -/
theorem token_of_bare {script word : String} {t : Located} (ht : t ∈ tokenize script)
    (hname : (Parser.nameOf? t.token).isSome) (h : WrittenAs script t word) :
    t.token = ofWord word := by
  have heof : t.token ≠ .eof := by
    intro heof
    rw [heof] at hname
    cases hname
  obtain ⟨before, c, rest, hcs, hnext, hstart, hstop⟩ := scan_mem ht heof
  have hslice : Slice script.toList t.start t.stop (c :: rest.take (next c rest).2) := by
    refine ⟨before, rest.drop (next c rest).2, ?_, by rw [hstart, Nat.zero_add], ?_⟩
    · rw [hcs, List.append_assoc, List.cons_append, List.take_append_drop]
    · rw [byteLength_append, hstop, hstart, Nat.zero_add]
  have hword : word.toList = c :: rest.take (next c rest).2 :=
    h.source.cut.symm.trans hslice.cut
  -- the text is bare, so it starts a word, which the lexer reads to its end
  have hbare := h.bare
  rw [hword, List.all_cons, Bool.and_eq_true] at hbare
  have hread := next_word (startsWord_of_next hnext hname hbare.1) rest
  have htake : rest.take (rest.takeWhile isWordChar).length = rest.takeWhile isWordChar :=
    (List.prefix_iff_eq_take.1 (List.takeWhile_prefix isWordChar)).symm
  rw [hread] at hnext hword
  dsimp only at hnext hword
  rw [htake] at hword
  rw [← Option.some.inj hnext, ← hword, String.ofList_toList]

end CrudGen.Sql

namespace CrudGen.Sql.Parser

-- ---------------------------------------------------------------------------
-- The token of a name
-- ---------------------------------------------------------------------------

/-- A name is the next token. -/
theorem cons_of_name {what n : String} {ts rest : List Token} (h : name what ts = .ok (n, rest)) :
    ∃ t, ts = t :: rest ∧ nameOf? t = some n := by
  obtain ⟨hname, rfl⟩ := name_cases h
  cases ts with
  | nil => cases hname
  | cons t more => exact ⟨t, rfl, hname⟩

/-- Of names joined by dots the last one counts: it stands in front of what is left. -/
theorem last_of_moreParts {what : String} {parts parts' : List String} {ts rest : List Token}
    (h : moreParts what parts ts = .ok (parts', rest)) : parts' = parts ∧ rest = ts ∨
      ∃ before t n, ts = before ++ t :: rest ∧ nameOf? t = some n ∧ parts'.getLast? = some n := by
  -- a part is a dot and a name; what is behind them is shorter
  induction hlength : ts.length using Nat.strong_induction_on generalizing ts parts with
  | _ length ih =>
    by_cases hdot : front ts = .dot
    · obtain ⟨more, rfl⟩ := cons_of_front hdot Token.noConfusion
      cases hname : name what more with
      | error e =>
        have hstep : namePart what parts (.dot :: more) = .error e := by
          change Except.bind (name what more) _ = _
          rw [hname]
          rfl
        rw [moreParts, iterate, hstep] at h
        cases h
      | ok r =>
        obtain ⟨n, left⟩ := r
        obtain ⟨t, rfl, ht⟩ := cons_of_name hname
        rw [moreParts_dot ht] at h
        have hlt : left.length < length := by
          rw [← hlength, List.length_cons, List.length_cons]
          omega
        obtain ⟨rfl, rfl⟩ | ⟨before, u, m, rfl, hu, hlast⟩ := ih _ hlt h rfl
        · exact .inr ⟨[.dot], t, n, rfl, ht, List.getLast?_concat ..⟩
        · exact .inr ⟨.dot :: t :: before, u, m, rfl, hu, hlast⟩
    · rw [moreParts_end hdot] at h
      cases h
      exact .inl ⟨rfl, rfl⟩

/-- The last part of a name with dots is its last token. -/
theorem last_of_qualifiedName {what n : String} {ts rest : List Token}
    (h : qualifiedName what ts = .ok (n, rest)) :
    ∃ before t, ts = before ++ t :: rest ∧ nameOf? t = some n := by
  obtain ⟨parts, left, hparts, hmade⟩ := bind_eq_ok h
  cases hmade
  rw [nameParts] at hparts
  obtain ⟨first, left', hfirst, hmore⟩ := bind_eq_ok hparts
  obtain ⟨t, rfl, ht⟩ := cons_of_name hfirst
  obtain ⟨rfl, rfl⟩ | ⟨before, u, m, rfl, hu, hlast⟩ := last_of_moreParts hmore
  · exact ⟨[], t, rfl, ht⟩
  · exact ⟨t :: before, u, rfl, by rw [hu, hlast]; rfl⟩

-- ---------------------------------------------------------------------------
-- The tokens of columns
-- ---------------------------------------------------------------------------

/-- A column of a table is read at a token of its statement. -/
def StartsAt (dialect : Dialect) (table : String) (run : List Located) (t : Located)
    (c : Column) : Prop :=
  ∃ before after d left, run = before ++ t :: after ∧
    column dialect table ((t :: after).map (·.token)) = .ok (d, left) ∧
      d.column.signature = c.signature

/-- A column starts at the same token in a longer run. -/
theorem StartsAt.append {run : List Located} {t : Located} {c : Column}
    (h : StartsAt dialect table run t c) (earlier : List Located) :
    StartsAt dialect table (earlier ++ run) t c := by
  obtain ⟨before, after, d, left, rfl, hread, hsame⟩ := h
  exact ⟨earlier ++ before, after, d, left, (List.append_assoc ..).symm, hread, hsame⟩

/-- A column starts at its name. -/
theorem StartsAt.name {run : List Located} {t : Located} {c : Column}
    (h : StartsAt dialect table run t c) : nameOf? t.token = some c.name := by
  obtain ⟨before, after, d, left, rfl, hread, hsame⟩ := h
  obtain ⟨w, ⟨left', rest, hname, -⟩, -, -⟩ := announces_of_column hread
  obtain ⟨token, hcons, htoken⟩ := cons_of_name hname
  rw [List.map_cons] at hcons
  rw [(List.cons.inj hcons).1, htoken]
  exact congrArg (some ·.1) hsame

/-- What is read at a token is known by its signature. -/
theorem forall₂_starts {run starts : List Located} {columns columns' : List Column}
    (h : List.Forall₂ (StartsAt dialect table run) starts columns)
    (hsame : columns'.map (·.signature) = columns.map (·.signature)) :
    List.Forall₂ (StartsAt dialect table run) starts columns' := by
  let Reads (t : Located) (signature : String × String × SqlType) : Prop :=
    ∃ before after d left, run = before ++ t :: after ∧
      column dialect table ((t :: after).map (·.token)) = .ok (d, left) ∧
        d.column.signature = signature
  have hreads : List.Forall₂ Reads starts (columns.map (·.signature)) :=
    List.forall₂_map_right_iff.2 h
  rw [← hsame, List.forall₂_map_right_iff] at hreads
  exact hreads

/-- An element is at most one column, which is read at its first token. -/
theorem starts_of_element {run : List Located} {d : TableDraft} {next : ForInStep TableDraft}
    {left : List Token}
    (h : tableElement dialect table d (run.map (·.token)) = .ok (next, left)) :
    ∃ starts more, starts.Sublist (run.take 1) ∧ next.value.columns = d.columns ++ more ∧
      List.Forall₂ (StartsAt dialect table run) starts more := by
  obtain ⟨hcolumns, -⟩ | ⟨-, c, left', hread, hadd⟩ := tableElement_cases h
  · exact ⟨[], [], List.nil_sublist _, by rw [hcolumns, List.append_nil], .nil⟩
  · cases run with
    | nil =>
      obtain ⟨w, ⟨_, _, hname, -⟩, -, -⟩ := announces_of_column hread
      obtain ⟨token, hcons, -⟩ := cons_of_name hname
      cases hcons
    | cons t after =>
      exact ⟨[t], [c.column], List.Sublist.refl _, (TableDraft.addColumn_keeps hadd).1,
        .cons ⟨[], after, c, left', rfl, hread, rfl⟩ .nil⟩

/-- What is left of a table stands at its end. -/
theorem suffix_tableElement {d : TableDraft} {next : ForInStep TableDraft}
    {ts left : List Token} (h : tableElement dialect table d ts = .ok (next, left)) :
    left <:+ ts := by
  have hedge : PlainEdge [Token.rparen] [Token.rparen] :=
    plainEdge_of_closes (List.cons_ne_nil _ _) (.rparen []) (.rparen [])
  exact (local_tableElement (Q := True) hedge dialect table d).suffix h

/-- Every column of a table is read at a token of its own, in the order in which they stand. -/
theorem exists_starts {run : List Located} {d d' : TableDraft} {rest : List Token}
    (h : iterate (tableElement dialect table) d (run.map (·.token)) = .ok (d', rest)) :
    ∃ starts more, starts.Sublist run ∧ d'.columns = d.columns ++ more ∧
      List.Forall₂ (StartsAt dialect table run) starts more := by
  induction hlength : run.length using Nat.strong_induction_on generalizing run d with
  | _ length ih =>
    rw [iterate] at h
    cases hstep : tableElement dialect table d (run.map (·.token)) with
    | error e =>
      rw [hstep] at h
      cases h
    | ok r =>
      obtain ⟨next, left⟩ := r
      obtain ⟨starts, more, hsub, hcolumns, hstarts⟩ := starts_of_element hstep
      have hlast (hd : next.value = d') : ∃ starts more, starts.Sublist run ∧
          d'.columns = d.columns ++ more ∧ List.Forall₂ (StartsAt dialect table run) starts more :=
        ⟨starts, more, hsub.trans (List.take_sublist ..), hd ▸ hcolumns, hstarts⟩
      rw [hstep] at h
      -- a last element closes the list, and no column starts behind it
      cases next with
      | done s =>
        cases h
        exact hlast rfl
      | yield s =>
        dsimp only at h
        split at h
        · rename_i hlt
          -- what an element takes is the start of the run, and later columns start behind it
          obtain ⟨taken, htaken⟩ := suffix_tableElement hstep
          obtain ⟨first, later, rfl, rfl, rfl⟩ := List.append_eq_map_iff.1 htaken
          have hne : first ≠ [] := by
            rintro rfl
            simp at hlt
          obtain ⟨t, others, rfl⟩ := List.exists_cons_of_ne_nil hne
          have hshorter : later.length < length := by
            simp only [← hlength, List.length_append, List.length_cons]
            omega
          obtain ⟨starts', more', hsub', hcolumns', hstarts'⟩ := ih _ hshorter h rfl
          refine ⟨starts ++ starts', more ++ more', ?_, ?_, ?_⟩
          · exact List.Sublist.append (hsub.trans (by simp)) hsub'
          · rw [hcolumns', ← List.append_assoc, ← hcolumns]
            rfl
          · exact List.rel_append hstarts (hstarts'.imp fun _ _ hstart => hstart.append _)
        · cases h
          exact hlast rfl

end CrudGen.Sql.Parser

namespace CrudGen.Sql

open Lexer CrudGen.Sql.Parser

/-- A name is kept as a word says: as the word itself, or as the spelling that is reserved for it. -/
def KeptFrom (name word : String) : Prop :=
  name = keptAs word ∧
    (name = word ↔ ∀ entry ∈ reserved, entry.1 = Text.toUpper word → entry.2 = word)

/-- A name that is written as a word is kept as that word, unless it is a keyword. -/
theorem keptFrom_of_written {script word n : String} {t : Located} (ht : t ∈ tokenize script)
    (hname : nameOf? t.token = some n) (hword : WrittenAs script t word) : KeptFrom n word := by
  have htoken := token_of_bare ht (Option.isSome_iff_exists.2 ⟨n, hname⟩) hword
  rw [htoken, nameOf?_ofWord] at hname
  obtain rfl := Option.some.inj hname
  exact ⟨rfl, keptAs_eq_iff word⟩

/-- **Names.** The name of a table stands before its parenthesis, and every column is read at a
token of its own behind it. Where such a token is written as a bare word, the name is this word,
unless the word is reserved in some letter case: then the name is the spelling that is kept of it,
which is the word just when it is spelled so. -/
theorem declared_as_written {script : String} {dialect : Dialect} {run : List Located}
    {d : TableDefinition} (hrun : run ∈ statements (tokenize script))
    (h : Statement.parse dialect (run.map (·.token)) = .ok (.createTable d)) :
    ∃ before table paren after starts, run = before ++ table :: paren :: after ∧
      paren.token = .lparen ∧ starts.Sublist after ∧
      List.Forall₂ (StartsAt dialect d.table.name run) starts d.table.columns ∧
      (∀ word, WrittenAs script table word → KeptFrom d.table.name word) ∧
      List.Forall₂ (fun t c => ∀ word, WrittenAs script t word → KeptFrom c.name word)
        starts d.table.columns := by
  obtain ⟨⟨_, rest⟩, hread, rfl⟩ := ok_of_map h
  obtain ⟨modified, left, htokens, hmodifiers, hcreate⟩ := createTable_of_statement hread
  obtain ⟨ifNotExists, name, named, elements, draft, last, hif, hname, helements, hmade⟩ :=
    elements_of_createTable hcreate
  obtain ⟨rfl, hsignatures, -⟩ := TableDraft.definition_keeps hmade
  obtain ⟨qualifiers, t, rfl, ht⟩ := last_of_qualifiedName hname
  -- the readers up to the name leave an end of the tokens
  have hifLocal : Local [.eof] [.eof] True skipIfExists := local_skipIfExists_front
  have hmodifiersLocal : Local [.eof] [.eof] True modifiers := local_modifiers_front
  obtain ⟨words, rfl⟩ := hifLocal.suffix hif
  obtain ⟨more, rfl⟩ := hmodifiersLocal.suffix hmodifiers
  have hsplit : run.map (·.token) = (.keyword .create :: (more ++ .keyword .table ::
      (words ++ qualifiers))) ++ t :: .lparen :: elements := by
    rw [htokens]
    simp
  obtain ⟨before, behind, rfl, -, hbehind⟩ := List.map_eq_append_iff.1 hsplit
  obtain ⟨table, nested, rfl, rfl, hnested⟩ := List.map_eq_cons_iff.1 hbehind
  obtain ⟨paren, after, rfl, hparen, rfl⟩ := List.map_eq_cons_iff.1 hnested
  obtain ⟨starts, columns, hsub, hcolumns, hstarts⟩ := exists_starts helements
  obtain rfl : draft.columns = columns := hcolumns
  have hstarts := forall₂_starts (hstarts.imp fun _ _ hstart => hstart.append
    (before ++ [table, paren])) hsignatures
  rw [List.append_assoc, List.cons_append, List.cons_append, List.nil_append] at hstarts
  have hsubset : before ++ table :: paren :: after ⊆ tokenize script :=
    (infix_of_mem_runs (List.mem_filter.1 hrun).1).subset
  refine ⟨before, table, paren, after, starts, rfl, hparen, hsub, hstarts,
    fun word hword => keptFrom_of_written (hsubset (by simp)) ht hword, ?_⟩
  have hmem : ∀ t ∈ starts, t ∈ tokenize script := fun t hmem =>
    hsubset (List.mem_append_right _ (List.mem_cons_of_mem _ (List.mem_cons_of_mem _
      (hsub.subset hmem))))
  exact ((List.forall₂_and_left _ _).2 ⟨hmem, hstarts⟩).imp fun t c hstart word hword =>
    keptFrom_of_written hstart.1 hstart.2.name hword

private def keyScript : String :=
  "CREATE TABLE t (Key INT)"

private def keyRun : List Located :=
  [⟨.keyword .create, 0, 6⟩, ⟨.keyword .table, 7, 12⟩, ⟨.ident "t", 13, 14⟩, ⟨.lparen, 15, 16⟩,
    ⟨.keyword .key, 16, 19⟩, ⟨.ident "INT", 20, 23⟩, ⟨.rparen, 23, 24⟩]

private def keyColumn : Column :=
  { name := "key", declaredType := "INT", dataType := .integer }

private def keyTable : TableDefinition where
  table := { name := "t", columns := [keyColumn] }
  foreignKeys := []
  inlineEnums := []
  ifNotExists := false

private theorem keyRun_mem : keyRun ∈ statements (tokenize keyScript) := by
  rw [tokenize, keyScript, String.toList_ofList]
  decide +kernel

/-- The script is one table. -/
private theorem parse_keyRun :
    Statement.parse .generic (keyRun.map (·.token)) = .ok (.createTable keyTable) := by
  decide +kernel

/-- Its column is written as `Key`. -/
private theorem writtenAs_key {t : Located} (ht : t ∈ keyRun)
    (hname : nameOf? t.token = some keyColumn.name) : WrittenAs keyScript t "Key" := by
  have hkey : t = ⟨.keyword .key, 16, 19⟩ := by
    revert hname
    revert t
    decide +kernel
  rw [hkey]
  refine ⟨⟨"CREATE TABLE t (".toList, " INT)".toList, ?_, ?_, ?_⟩, ?_⟩ <;> decide +kernel

/-- A column that is written `Key` is called `key`. -/
theorem declared_as_written_of_keyword :
    keyRun ∈ statements (tokenize keyScript) ∧
    Statement.parse .generic (keyRun.map (·.token)) = .ok (.createTable keyTable) ∧
    ∃ t ∈ keyRun, StartsAt .generic "t" keyRun t keyColumn ∧ WrittenAs keyScript t "Key" ∧
      KeptFrom keyColumn.name "Key" := by
  refine ⟨keyRun_mem, parse_keyRun, ?_⟩
  obtain ⟨before, table, paren, after, starts, hrun, -, hsub, hstarts, -, hnames⟩ :=
    declared_as_written keyRun_mem parse_keyRun
  cases hstarts with
  | @cons t _ _ _ hstart _ =>
    have ht : t ∈ keyRun := by
      rw [hrun]
      simp [hsub.subset (List.mem_cons_self ..)]
    have hword := writtenAs_key ht hstart.name
    exact ⟨t, ht, hstart, hword, (List.forall₂_cons.1 hnames).1 "Key" hword⟩

/-- A reserved word that is not in lower case is no name that is kept as it is written. -/
theorem declared_otherwise :
    ¬ ∀ (script : String) (dialect : Dialect) (run : List Located) (d : TableDefinition),
      run ∈ statements (tokenize script) →
      Statement.parse dialect (run.map (·.token)) = .ok (.createTable d) →
      ∃ starts, starts.Sublist run ∧
        List.Forall₂ (StartsAt dialect d.table.name run) starts d.table.columns ∧
        List.Forall₂ (fun t c => ∀ word, WrittenAs script t word → c.name = word)
          starts d.table.columns := by
  intro h
  obtain ⟨starts, hsub, hstarts, hnames⟩ :=
    h keyScript .generic keyRun keyTable keyRun_mem parse_keyRun
  cases hstarts with
  | @cons t _ _ _ hstart _ =>
    have hword := writtenAs_key (hsub.subset (List.mem_cons_self ..)) hstart.name
    exact absurd ((List.forall₂_cons.1 hnames).1 "Key" hword) (by decide)

end CrudGen.Sql
