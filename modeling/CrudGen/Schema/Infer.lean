import CrudGen.Catalog.Build
import CrudGen.Schema.Order

/-!
# Inferring a schema

A junction only links two other tables: its primary key has several columns, all of them foreign
keys, its foreign keys go to exactly two tables other than itself, and it has no other columns. It
stands for one many-to-many relationship. Every foreign key of an entity is a relationship of its
own, unless it refers to a junction. It is one-to-one exactly when its columns are declared unique.
`Schema.infer` puts these together with an order of the entities.
-/

namespace CrudGen

/-- The first foreign key to each table referred to, in declaration order. -/
def Table.distinctTargets (t : Table) : List ForeignKey :=
  t.foreignKeys.foldl
    (fun seen fk => if seen.any (·.targetTable == fk.targetTable) then seen else seen ++ [fk]) []

/-- Whether a table only links two others. -/
def Table.isJunction (t : Table) : Bool :=
  let targets := t.distinctTargets
  2 ≤ t.primaryKey.length
    && t.primaryKey.all t.isForeignKeyColumn
    && targets.length == 2
    && targets.all (fun fk => fk.targetTable != t.name)
    && t.columns.all fun c => t.isPrimaryKeyColumn c.name || t.isForeignKeyColumn c.name

/-- The kind of a table. -/
def Table.kind (t : Table) : TableKind :=
  if t.isJunction then .junction else .entity

/-- What a foreign key yields. -/
inductive Outcome where
  | related (r : Relationship)
  | dangling (u : UnresolvedReference)
  deriving Repr, Inhabited

/-- The relationship of an outcome. -/
def Outcome.related? : Outcome → Option Relationship
  | .related r => some r
  | .dangling _ => none

/-- The report of an outcome. -/
def Outcome.dangling? : Outcome → Option UnresolvedReference
  | .related _ => none
  | .dangling u => some u

/-- What a junction yields. -/
def Table.junctionOutcomes (t : Table) : List Outcome :=
  match t.distinctTargets with
  | [owner, target] =>
    [.related {
      kind := .manyToMany
      owner := owner.targetTable
      target := target.targetTable
      columns := owner.columns
      targetColumns := target.columns
      via := some t.name
      onDelete := owner.onDelete }]
  | _ => []

/-- What a foreign key of an entity yields. -/
def Table.foreignKeyOutcome (t : Table) (isJunction : String → Bool) (fk : ForeignKey) : Outcome :=
  if isJunction fk.targetTable then
    .dangling {
      table := t.name
      columns := fk.columns
      target := fk.targetTable
      reason := Dangling.junction.message }
  else
    .related {
      kind := if t.isUniqueSet fk.columns then .oneToOne else .manyToOne
      owner := t.name
      target := fk.targetTable
      columns := fk.columns
      targetColumns := fk.targetColumns
      onDelete := fk.onDelete }

/-- What the foreign keys of a table yield, in their order. -/
def Table.outcomes (t : Table) (isJunction : String → Bool) : List Outcome :=
  match t.kind with
  | .junction => t.junctionOutcomes
  | .entity => t.foreignKeys.map (t.foreignKeyOutcome isJunction)

/-- What the foreign keys of all tables yield, in declaration order. -/
def outcomesOf (tables : List Table) : List Outcome :=
  let isJunction (name : String) : Bool := tables.any fun t => t.name == name && t.isJunction
  tables.flatMap fun t => t.outcomes isJunction

/-- The schema of a catalog. -/
def Schema.infer (c : Catalog) : Schema :=
  let outcomes := outcomesOf c.tables
  let relationships := outcomes.filterMap (·.related?)
  let entities := c.tables.filter fun t => t.kind == .entity
  let ordered := generationOrder (entities.map (·.name)) relationships
  { tables := c.tables
    sequences := c.sequences
    enums := c.enums
    kinds := c.tables.map (·.kind)
    relationships
    order := ordered.order
    cycles := ordered.cycles
    unresolved := outcomes.filterMap (·.dangling?) }

end CrudGen
