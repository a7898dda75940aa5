import CrudGen.Proofs.Catalog.Fate

/-!
# Catalogs — what the first pass collects

The statements of a script that parse are definitions of tables, enumerations and sequences, which
the first pass keeps if their names are new, and changes, which it puts aside in their order.

Main results:

* `Draft.changes_addAll` — all changes are put aside.
* `Draft.collects_addAll` — where all names differ, all tables and enumerations are kept, and all
  references of the tables wait.
-/

namespace CrudGen

open Sql (Dialect PendingForeignKey Statement TableChange TableDefinition Token)

-- ---------------------------------------------------------------------------
-- What statements declare
-- ---------------------------------------------------------------------------

namespace Sql.Statement

/-- The definition of a table that a statement is. -/
def definition? : Statement → Option TableDefinition
  | .createTable t => some t
  | _ => none

/-- The change that a statement is. -/
def change? : Statement → Option TableChange
  | .change c => some c
  | _ => none

/-- The enumerations that a statement declares by itself or among the columns of its table. -/
def enums : Statement → List EnumType
  | .createTable t => t.inlineEnums
  | .createEnum e => [e]
  | _ => []

end Sql.Statement

variable {α : Type}

/-- The statements that parse, each of them labelled and given by its tokens. -/
def readable (dialect : Dialect) (statements : List (α × List Token)) : List Statement :=
  (statements.map (·.2)).filterMap fun tokens => (Statement.parse dialect tokens).toOption

/-- The definitions of tables among statements. -/
def definitionsOf (dialect : Dialect) (statements : List (α × List Token)) :
    List TableDefinition :=
  (readable dialect statements).filterMap (·.definition?)

/-- The enumerations that statements declare, those of changes apart. -/
def enumsOf (dialect : Dialect) (statements : List (α × List Token)) : List EnumType :=
  (readable dialect statements).flatMap (·.enums)

/-- The changes among statements. -/
def changesOf (dialect : Dialect) (statements : List (α × List Token)) : List TableChange :=
  (readable dialect statements).filterMap (·.change?)

/-- Labels do not matter to what is declared. -/
theorem readable_numbered (dialect : Dialect) (statements : List (String × List Token)) :
    readable dialect (numbered statements) = readable dialect statements := by
  have htokens : (numbered statements).map (·.2) = statements.map (·.2) :=
    List.ext_getElem (by simp [numbered]) fun i _ _ => by simp [numbered]
  rw [readable, readable, htokens]

/-- The statements that are read are the first, if it is, and those of the rest. -/
theorem readable_cons (dialect : Dialect) (s : α × List Token) (rest : List (α × List Token)) :
    readable dialect (s :: rest) =
      (Statement.parse dialect s.2).toOption.toList ++ readable dialect rest := by
  rw [readable, List.map_cons, List.filterMap_cons]
  cases (Statement.parse dialect s.2).toOption <;> rfl

/-- The changes among statements, each with its origin. -/
def putAside (dialect : Dialect) (statements : List (Origin × List Token)) :
    List (Origin × TableChange) :=
  statements.flatMap fun s =>
    ((Statement.parse dialect s.2).toOption.toList.filterMap (·.change?)).map fun c => (s.1, c)

/-- What is put aside of two parts is put aside of one and then of the other. -/
theorem putAside_append (dialect : Dialect) (statements more : List (Origin × List Token)) :
    putAside dialect (statements ++ more) = putAside dialect statements ++ putAside dialect more :=
  List.flatMap_append

/-- What is put aside are the changes that are read. -/
theorem map_putAside (dialect : Dialect) (statements : List (Origin × List Token)) :
    (putAside dialect statements).map (·.2) = changesOf dialect statements := by
  induction statements with
  | nil => rfl
  | cons s rest ih =>
    rw [changesOf, readable_cons, List.filterMap_append, ← changesOf, ← ih, putAside,
      List.flatMap_cons, List.map_append, List.map_map]
    exact congrArg (· ++ _) (List.map_id _)

namespace Draft

-- ---------------------------------------------------------------------------
-- Changes
-- ---------------------------------------------------------------------------

/-- A statement puts its change aside, if it is one. -/
theorem changes_addTokens (d : Draft) (dialect : Dialect) (o : Origin) (tokens : List Token) :
    (d.addTokens dialect o tokens).changes = d.changes ++ putAside dialect [(o, tokens)] := by
  unfold addTokens putAside
  rw [List.flatMap_singleton]
  cases Statement.parse dialect tokens with
  | error e => simp [addError, Except.toOption]
  | ok q =>
    cases q with
    | createTable t =>
      simp only [add, addTable]
      split
      · split <;> simp [addError, Except.toOption, Statement.change?]
      · simp [Except.toOption, Statement.change?]
    | change c => simp [add, Except.toOption, Statement.change?]
    | createSequence | createEnum | skipped =>
      simp [add, Except.toOption, Statement.change?]

/-- The first pass puts all changes aside, with their origins. -/
theorem changes_eq_putAside (d : Draft) (dialect : Dialect)
    (statements : List (Origin × List Token)) :
    (d.addAll dialect statements).changes = d.changes ++ putAside dialect statements := by
  induction statements generalizing d with
  | nil => exact (List.append_nil _).symm
  | cons s rest ih =>
    change ((d.addTokens dialect s.1 s.2).addAll dialect rest).changes = _
    rw [ih, changes_addTokens, List.append_assoc, ← putAside_append]
    rfl

/-- The changes that wait are those that the statements asked for, in their order. -/
theorem changes_addAll (d : Draft) (dialect : Dialect) (statements : List (Origin × List Token)) :
    (d.addAll dialect statements).changes.map (·.2) =
      d.changes.map (·.2) ++ changesOf dialect statements := by
  rw [changes_eq_putAside, List.map_append, map_putAside]

-- ---------------------------------------------------------------------------
-- Definitions and enumerations
-- ---------------------------------------------------------------------------

/-- Enumerations with new names are added behind the others. -/
theorem enums_addEnums {c : Catalog} {es : List EnumType}
    (h : ((c.enums ++ es).map (·.name)).Nodup) :
    (es.foldl Catalog.addEnum c).enums = c.enums ++ es := by
  induction es generalizing c with
  | nil => exact (List.append_nil _).symm
  | cons e rest ih =>
    have hnew : c.enums.any (fun other => other.name == e.name) = false := by
      rw [List.map_append, List.map_cons, List.nodup_append] at h
      simpa using fun other hother =>
        h.2.2 _ (List.mem_map_of_mem (f := fun e : EnumType => e.name) hother) e.name
          List.mem_cons_self
    have hadd : (c.addEnum e).enums = c.enums ++ [e] := by
      rw [Catalog.addEnum, if_neg (by simp [hnew])]
    rw [List.foldl_cons, ih] <;> rw [hadd, List.append_assoc]
    · rfl
    · exact h

/-- Sequences are no enumerations. -/
theorem enums_addSequence (c : Catalog) (s : Sequence) : (c.addSequence s).enums = c.enums := by
  unfold Catalog.addSequence
  split <;> rfl

/-- A draft to which definitions, with their references, and enumerations have come. -/
structure Collects (d d' : Draft) (definitions : List TableDefinition) (enums : List EnumType) :
    Prop where
  tables  : d'.catalog.tables = d.catalog.tables ++ definitions.map (·.table)
  enums   : d'.catalog.enums = d.catalog.enums ++ enums
  pending : d'.pending = d.pending ++ definitions.flatMap (·.references)

/-- Definitions and enumerations have names that differ, and that are new to a draft. -/
structure Fresh (d : Draft) (definitions : List TableDefinition) (enums : List EnumType) :
    Prop where
  tables : DistinctNames ((d.catalog.tables ++ definitions.map (·.table)).map (·.name))
  enums  : DistinctNames ((d.catalog.enums ++ enums).map (·.name))

variable {d d' d'' : Draft} {definitions definitions' : List TableDefinition}
  {enums enums' : List EnumType}

/-- What changes neither the catalog nor the references collects nothing. -/
theorem Collects.of_eq (hcatalog : d'.catalog = d.catalog) (hpending : d'.pending = d.pending) :
    Collects d d' [] [] := by
  refine ⟨?_, ?_, ?_⟩
  · rw [hcatalog, List.map_nil, List.append_nil]
  · rw [hcatalog, List.append_nil]
  · rw [hpending, List.flatMap_nil, List.append_nil]

theorem Collects.trans (h : Collects d d' definitions enums)
    (h' : Collects d' d'' definitions' enums') :
    Collects d d'' (definitions ++ definitions') (enums ++ enums') := by
  refine ⟨?_, ?_, ?_⟩
  · rw [h'.tables, h.tables, List.map_append, List.append_assoc]
  · rw [h'.enums, h.enums, List.append_assoc]
  · rw [h'.pending, h.pending, List.flatMap_append, List.append_assoc]

/-- What is new as a whole is new in its first part. -/
theorem Fresh.left (h : d.Fresh (definitions ++ definitions') (enums ++ enums')) :
    d.Fresh definitions enums := by
  refine ⟨h.tables.sublist ?_, h.enums.sublist ?_⟩
  · refine (List.Sublist.append_left ?_ _).map _
    exact (List.sublist_append_left _ _).map _
  · exact (List.Sublist.append_left (List.sublist_append_left _ _) _).map _

/-- What is new to a draft, and differs from what comes to it, is new afterwards. -/
theorem Fresh.right (h : d.Fresh (definitions ++ definitions') (enums ++ enums'))
    (hcollects : Collects d d' definitions enums) : d'.Fresh definitions' enums' := by
  refine ⟨?_, ?_⟩
  · rw [hcollects.tables, List.append_assoc, ← List.map_append]
    exact h.tables
  · rw [hcollects.enums, List.append_assoc]
    exact h.enums

/-- The first pass keeps what is new in a statement. -/
theorem collects_add {s : Statement} (o : Origin) (h : d.Fresh s.definition?.toList s.enums) :
    Collects d (d.add o s) s.definition?.toList s.enums := by
  cases s with
  | createTable t =>
    -- the name is new, so the table is not refused
    have hnew : d.catalog.table? t.table.name = none := by
      have hnames := h.tables
      rw [List.map_append] at hnames
      have hne := (List.pairwise_append.1 hnames).2.2
      refine List.find?_eq_none.2 fun u hu => ?_
      simpa using hne u.name (List.mem_map_of_mem hu) t.table.name (List.mem_singleton_self _)
    rw [add, addTable, if_neg (by simp [hnew])]
    refine ⟨?_, enums_addEnums h.enums.nodup, ?_⟩
    · rw [← Catalog.tables_addEnums d.catalog t.inlineEnums]
      rfl
    · exact congrArg (d.pending ++ ·) (List.append_nil _).symm
  | createSequence s =>
    refine ⟨?_, ?_, (List.append_nil _).symm⟩
    · exact (Catalog.tables_addSequence _ _).trans (List.append_nil _).symm
    · exact (enums_addSequence _ _).trans (List.append_nil _).symm
  | createEnum e =>
    have henums : ([e].foldl Catalog.addEnum d.catalog).enums = d.catalog.enums ++ [e] :=
      enums_addEnums h.enums.nodup
    refine ⟨?_, henums, (List.append_nil _).symm⟩
    exact (Catalog.tables_addEnum _ _).trans (List.append_nil _).symm
  | change c => exact .of_eq rfl rfl
  | skipped => exact .of_eq rfl rfl

/-- A statement whose names are new adds its table and its enumerations. -/
theorem collects_addTokens {dialect : Dialect} {tokens : List Token} (o : Origin)
    (h : d.Fresh ((Statement.parse dialect tokens).toOption.toList.filterMap (·.definition?))
      ((Statement.parse dialect tokens).toOption.toList.flatMap (·.enums))) :
    Collects d (d.addTokens dialect o tokens)
      ((Statement.parse dialect tokens).toOption.toList.filterMap (·.definition?))
      ((Statement.parse dialect tokens).toOption.toList.flatMap (·.enums)) := by
  unfold addTokens
  generalize Statement.parse dialect tokens = parsed at h ⊢
  cases parsed with
  | error e => exact .of_eq rfl rfl
  | ok s =>
    have hdefinition : [s].filterMap (·.definition?) = s.definition?.toList := by
      cases s <;> rfl
    simp only [Except.toOption, Option.toList_some, hdefinition, List.flatMap_singleton] at h ⊢
    exact collects_add o h

/-- The first pass keeps all tables, references and enumerations that statements declare. -/
theorem collects_addAll {dialect : Dialect} {statements : List (Origin × List Token)}
    (h : d.Fresh (definitionsOf dialect statements) (enumsOf dialect statements)) :
    Collects d (d.addAll dialect statements) (definitionsOf dialect statements)
      (enumsOf dialect statements) := by
  induction statements generalizing d with
  | nil => exact .of_eq rfl rfl
  | cons s rest ih =>
    unfold definitionsOf enumsOf at h ⊢
    rw [readable_cons, List.filterMap_append, List.flatMap_append] at h ⊢
    have hfirst := collects_addTokens s.1 h.left
    exact hfirst.trans (ih (h.right hfirst))

end Draft

end CrudGen
