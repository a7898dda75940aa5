import CrudGen.Entity.Basic

/-!
# Building entities

`Entity.build` views a table of a schema through a profile. Relations are named after the key or the
table they lead to; a name that is taken gets a hint at its columns, and if need be a number.
-/

namespace CrudGen

open Naming

/-- A column as a field. -/
def Field.ofColumn (p : Profile) (t : Table) (c : Column) : Field where
  column := c.name
  name := p.mapName c.name .field
  type := .ofColumn p.toConventions c
  sqlType := c.dataType
  primaryKey := c.primaryKey
  autoIncrement := c.autoIncrement
  unique := c.unique
  default := c.default
  references := (t.foreignKeys.find? fun fk => fk.columns.contains c.name).map (·.targetTable)
  comment := c.comment

/-- The warning about a column whose type the target declines. -/
def Field.warning? (p : Profile) (t : Table) (f : Field) : Option UnmappedType :=
  if f.type.fallback then
    some {
      target := p.key.text
      table := t.name
      column := f.column
      sqlType := f.sqlType.display
      fallback := p.fallback }
  else none

/-- What a single foreign-key column is named after: `category` for `category_id`. -/
def keyStem? : List String → Option String
  | [single] =>
    let lower := Text.toLower single
    let stem := ["_id", "_fk", "_key", "id"].findSome? (Text.dropTail? lower)
    (stem.map fun s => String.ofList ((s.toList.reverse.dropWhile (· == '_')).reverse)).filter
      fun s => !s.isEmpty
  | _ => none

/-- What a relation is named after. -/
def RelationView.stem (v : RelationView) : String :=
  match v.kind, v.inverse with
  | .manyToOne, false | .oneToOne, false =>
    (keyStem? v.relationship.columns).getD (singularSnake v.other)
  | .oneToOne, true => singularSnake v.other
  | _, _ => pluralSnake v.other

/-- A name that is not used yet: `name`, or else `name` with the least number from two on. One of
`used.length + 1` numbers is free. -/
def freeName (p : Profile) (used : List String) (name : String) : String :=
  let numbered (n : Nat) : String := p.mapName (name ++ "_" ++ toString n) .field
  if !used.contains name then name
  else
    let least := (List.range' 2 (used.length + 1)).find? fun n => !used.contains (numbered n)
    numbered (least.getD 2)

/-- The name of a relation next to those that are used. -/
def RelationView.memberName (p : Profile) (used : List String) (v : RelationView) : String :=
  let plain := p.mapName v.stem .field
  if used.contains plain then
    let columns := v.relationship.columns
    let hint := (keyStem? columns).getD ("_".intercalate columns)
    freeName p used (p.mapName (v.stem ++ "_by_" ++ hint) .field)
  else plain

/-- The columns that a foreign key of a junction refers to. -/
def Schema.referenced (s : Schema) (junction : String) (columns : List String) : List String :=
  let fk := (s.table? junction).bind fun t => t.foreignKeys.find? (·.columns == columns)
  (fk.map (·.targetColumns)).getD []

/-- Whether an entity may be generated after one that refers to it. -/
def Schema.comesLate (s : Schema) (source other : String) : Bool :=
  source == other || (s.isDeferred source && s.isDeferred other)
    || match s.order.idxOf? source, s.order.idxOf? other with
      | some i, some j => i < j
      | none, some _ => true
      | _, none => false

/-- A view as a relation under a name. -/
def RelationView.relation (s : Schema) (p : Profile) (names : NameTable) (v : RelationView)
    (name : String) : Relation :=
  let r := v.relationship
  let (near, far) :=
    if v.inverse then (r.targetColumns, r.columns) else (r.columns, r.targetColumns)
  let target := names.resolve p v.other
  { kind := v.kind
    name
    targetTable := v.other
    targetEntity := target.entity
    targetFile := target.file
    localColumns := match r.via with
      | some junction => s.referenced junction near
      | none => near
    remoteColumns := match r.via with
      | some junction => s.referenced junction far
      | none => far
    via := r.via.map fun junction =>
      { table := junction, localColumns := near, remoteColumns := far }
    inverse := v.inverse
    deferred := s.comesLate v.source v.other }

/-- Views as relations, each under a name that no field and no relation before it has. -/
def relationsFrom (s : Schema) (p : Profile) (names : NameTable) :
    List String → List RelationView → List Relation
  | _, [] => []
  | used, v :: rest =>
    let name := v.memberName p used
    v.relation s p names name :: relationsFrom s p names (used ++ [name]) rest

/-- A table of a schema as a target sees it. -/
def Entity.build (s : Schema) (p : Profile) (names : NameTable) (t : Table) : Entity :=
  let fields := t.columns.map (Field.ofColumn p t)
  let views := (s.relationsOf t.name).filter fun v => !s.isJunction v.other
  { table := t
    names := names.resolve p t.name
    fields
    relations := relationsFrom s p names (fields.map (·.name)) views
    deferred := s.isDeferred t.name }

/-- The warnings about the columns of an entity. -/
def Entity.warnings (p : Profile) (e : Entity) : List UnmappedType :=
  e.fields.filterMap (Field.warning? p e.table)

/-- The entities of a schema in generation order. -/
def Schema.entityModels (s : Schema) (p : Profile) : List Entity :=
  let names := NameTable.assign s p
  s.orderedEntities.map (Entity.build s p names)

end CrudGen
