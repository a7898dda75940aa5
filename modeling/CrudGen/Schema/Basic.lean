import CrudGen.Catalog.Basic
import CrudGen.Diagnostic

/-!
# Schemas

A `Schema` is a catalog with the relationships between its tables. Each relationship is stored once
and can be viewed from both of its ends; `relationsOf` lists the views of one table.
-/

namespace CrudGen

/-- What a table is for: things of their own, or links between two others. -/
inductive TableKind where
  | entity | junction
  deriving DecidableEq, Repr, Inhabited

/-- The name of a kind. -/
def TableKind.name : TableKind → String
  | .entity => "entity"
  | .junction => "junction"

/-- How many rows of two tables belong together. Only views are one-to-many. -/
inductive RelationKind where
  | manyToOne | oneToOne | manyToMany | oneToMany
  deriving DecidableEq, Repr, Inhabited

namespace RelationKind

/-- The name of a kind. -/
def name : RelationKind → String
  | .manyToOne => "many-to-one"
  | .oneToOne => "one-to-one"
  | .manyToMany => "many-to-many"
  | .oneToMany => "one-to-many"

/-- The kind as the other end sees it. -/
def inverse : RelationKind → RelationKind
  | .manyToOne => .oneToMany
  | .oneToMany => .manyToOne
  | other => other

/-- Whether one row sees several. -/
def isCollection : RelationKind → Bool
  | .manyToMany | .oneToMany => true
  | _ => false

end RelationKind

/-- A relationship between two entities. Without a junction, `columns` are the foreign key in the
owner and `targetColumns` the columns it refers to. With a junction `via`, both lists are columns of
the junction: the first refers to the owner, the second to the target. -/
structure Relationship where
  kind : RelationKind
  owner : String
  target : String
  columns : List String
  targetColumns : List String
  via : Option String := none
  onDelete : ReferentialAction := .noAction
  deriving DecidableEq, Repr, Inhabited

/-- Whether both ends are one table. -/
def Relationship.isSelfReference (r : Relationship) : Bool :=
  r.owner == r.target

/-- A relationship seen from one end. `inverse` holds when that end is the stored target. -/
structure RelationView where
  kind : RelationKind
  source : String
  other : String
  relationship : Relationship
  inverse : Bool
  deriving DecidableEq, Repr, Inhabited

/-- A relationship seen from its owner. -/
def Relationship.forward (r : Relationship) : RelationView :=
  { kind := r.kind, source := r.owner, other := r.target, relationship := r, inverse := false }

/-- A relationship seen from its target. -/
def Relationship.backward (r : Relationship) : RelationView :=
  { kind := r.kind.inverse, source := r.target, other := r.owner, relationship := r,
    inverse := true }

/-- Tables with what is inferred about them. `order` lists the entities, dependencies first. -/
structure Schema where
  tables : List Table := []
  sequences : List Sequence := []
  enums : List EnumType := []
  kinds : List TableKind := []
  relationships : List Relationship := []
  order : List String := []
  cycles : List Cycle := []
  unresolved : List UnresolvedReference := []
  deriving DecidableEq, Repr, Inhabited

namespace Schema

/-- The table declared under exactly this name. -/
def table? (s : Schema) (name : String) : Option Table :=
  s.tables.find? (·.name == name)

/-- The tables with their kinds. -/
def classified (s : Schema) : List (Table × TableKind) :=
  s.tables.zip s.kinds

/-- The kind of a table. -/
def kind? (s : Schema) (name : String) : Option TableKind :=
  (s.classified.find? (·.1.name == name)).map (·.2)

/-- Whether a table links two others. -/
def isJunction (s : Schema) (name : String) : Bool :=
  s.kind? name == some .junction

/-- The entities in declaration order. -/
def entities (s : Schema) : List Table :=
  (s.classified.filter (·.2 == .entity)).map (·.1)

/-- The entities in generation order. -/
def orderedEntities (s : Schema) : List Table :=
  s.order.filterMap s.table?

/-- Whether a table lies on a circle of foreign keys. -/
def isDeferred (s : Schema) (name : String) : Bool :=
  s.cycles.any fun c => c.tables.contains name

/-- The views of a table on the relationships it owns. -/
def outgoing (s : Schema) (name : String) : List RelationView :=
  (s.relationships.filter (·.owner == name)).map (·.forward)

/-- The views of a table on the relationships that end at it. -/
def incoming (s : Schema) (name : String) : List RelationView :=
  (s.relationships.filter (·.target == name)).map (·.backward)

/-- All views of a table; a relationship of a table with itself is seen twice. -/
def relationsOf (s : Schema) (name : String) : List RelationView :=
  s.outgoing name ++ s.incoming name

end Schema

end CrudGen
