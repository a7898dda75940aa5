import CrudGen.Server.Java.Basic

/-!
# Entities in Java

The class of a row, whose annotations say how members are stored and how entities are related, and
the class of an identity of several columns.
-/

namespace CrudGen.Java

open Code

/-- How the member of a column is stored. -/
def columnMark (f : Field) : String :=
  let option (condition : Bool) (text : String) : List String := if condition then [text] else []
  let length :=
    match f.type.length, f.sqlType.isTextual with
    | some n, true => [s!"length = {n}"]
    | _, _ => []
  "@Column(" ++ commas (
    ["name = " ++ literal f.column]
      ++ option (!f.type.nullable && !f.primaryKey) "nullable = false"
      ++ option (f.unique && !f.primaryKey) "unique = true"
      ++ length
      ++ (f.type.precision.toList.map fun p => s!"precision = {p}")
      ++ (f.type.scale.toList.map fun s => s!"scale = {s}")
      ++ option f.isGenerated "insertable = false, updatable = false") ++ ")"

/-- Columns that refer to columns of another table. They are written through other members. -/
def joinColumns (columns targets : List String) : String :=
  let pair (c t : String) : String :=
    "@JoinColumn(name = " ++ literal c ++ ", referencedColumnName = " ++ literal t
      ++ ", insertable = false, updatable = false)"
  match columns.zipWith pair targets with
  | [single] => single
  | several => "@JoinColumns(" ++ Text.braced (commas several) ++ ")"

/-- Columns of a junction. -/
def junctionColumns (columns : List String) : String :=
  match columns.map fun c => "@JoinColumn(name = " ++ literal c ++ ")" with
  | [single] => single
  | several => Text.braced (commas several)

/-- An annotation with arguments if there are any. -/
def marked (name : String) (args : List String) : String :=
  if args.isEmpty then name else name ++ "(" ++ commas args ++ ")"

/-- How the member of a relation is related. -/
def relationMarks (b : Blueprint) (e : Entity) (r : Relation) : List String :=
  let mappedBy := (b.counterpart? e r).toList.map fun back =>
    "mappedBy = " ++ literal (ident back.name)
  let join := joinColumns r.localColumns r.remoteColumns
  let fetch := "fetch = FetchType.LAZY"
  match r.kind, r.inverse, r.via with
  | .manyToMany, false, some junction =>
    [ "@ManyToMany",
      "@JoinTable(name = " ++ literal junction.table
        ++ ", joinColumns = " ++ junctionColumns junction.localColumns
        ++ ", inverseJoinColumns = " ++ junctionColumns junction.remoteColumns ++ ")" ]
  | .manyToMany, true, _ => [marked "@ManyToMany" mappedBy]
  | .manyToOne, _, _ => [s!"@ManyToOne({fetch})", join]
  | .oneToOne, false, _ => [s!"@OneToOne({fetch})", join]
  | .oneToOne, true, _ => [marked "@OneToOne" (mappedBy ++ [fetch])]
  | _, _, _ => [marked "@OneToMany" mappedBy]

/-- The type of the member that a relation is. -/
def relationType (r : Relation) : String :=
  if r.kind.isCollection then s!"List<{r.targetEntity}>" else r.targetEntity

/-- The type of the member that a field is. -/
def memberType (b : Blueprint) (f : Field) : String :=
  if f.isGenerated then boxed b f else f.type.name

/-- The member of a field. -/
def fieldMember (b : Blueprint) (e : Entity) (f : Field) : List Code := [
  "",
  when ((Identity.ofEntity e).fields.any (·.column == f.column)) ["@Id"],
  when (f.primaryKey && f.autoIncrement && e.keyFields.length == 1) [
    "@GeneratedValue(strategy = GenerationType.IDENTITY)"],
  columnMark f,
  whenSome f.comment fun comment => ["@Comment(" ++ literal comment ++ ")"],
  "private " ++ memberType b f ++ " " ++ ident f.name ++ ";"]

/-- The member of a relation. -/
def relationMember (b : Blueprint) (e : Entity) (r : Relation) : List Code := [
  "",
  ofLines (relationMarks b e r),
  "@JsonIgnore",
  "private " ++ relationType r ++ " " ++ ident r.name
    ++ (if r.kind.isCollection then " = new ArrayList<>();" else ";")]

/-- Rows with a `marker` are marked as deleted, and those that are marked are left out. -/
def softDeletion (e : Entity) (marker : Field) : List Code :=
  let table := e.table.name
  let key := " AND ".intercalate ((Identity.ofEntity e).fields.map fun f => s!"{f.column} = ?")
  [ "@SQLDelete(sql = "
      ++ literal s!"UPDATE {table} SET {marker.column} = now() WHERE {key}" ++ ")",
    "@SQLRestriction(" ++ literal s!"{marker.column} IS NULL" ++ ")" ]

/-- The source of an entity. -/
def entitySource (b : Blueprint) (e : Entity) : List Code :=
  let name := e.names.entity
  let marker :=
    if b.features.softDelete && !e.keyFields.isEmpty then e.softDeleteField? else none
  let composite := e.keyFields.length != 1
  let need (condition : Bool) (paths : List String) : List String := if condition then paths else []
  let imports :=
    ["jakarta.persistence.*"] ++ typeImports b e.fields
      ++ need marker.isSome ["org.hibernate.annotations.SQLDelete",
        "org.hibernate.annotations.SQLRestriction"]
      ++ need (e.fields.any (·.comment.isSome)) ["org.hibernate.annotations.Comment"]
      ++ need (!e.relations.isEmpty) ["com.fasterxml.jackson.annotation.JsonIgnore"]
      ++ need (e.relations.any (·.kind.isCollection)) ["java.util.ArrayList", "java.util.List"]
  source b "entity" imports [
    "@Entity",
    "@Table(name = " ++ literal e.table.name ++ ")",
    when composite [s!"@IdClass({name}Id.class)"],
    whenSome marker (softDeletion e),
    block s!"public class {name}" [
      each e.fields (fieldMember b e),
      each e.relations (relationMember b e),
      each e.fields fun f => accessors (memberType b f) (ident f.name),
      each e.relations fun r => accessors (relationType r) (ident r.name)]]

/-- The source of the identity of rows with several key columns. -/
def identitySource (b : Blueprint) (e : Entity) (fields : List Field) : List Code :=
  let type := s!"{e.names.entity}Id"
  let names := fields.map fun f => ident f.name
  source b "entity" (["java.io.Serializable", "java.util.Objects"] ++ typeImports b fields) [
    block s!"public class {type} implements Serializable" [
      "",
      each fields fun f => [s!"private {f.type.name} " ++ ident f.name ++ ";"],
      "",
      block s!"public {type}()" [],
      "",
      block (s!"public {type}("
          ++ commas (fields.map fun f => f.type.name ++ " " ++ ident f.name) ++ ")") [
        each names fun n => [s!"this.{n} = {n};"]],
      "",
      "@Override",
      block "public boolean equals(Object o)" [
        "if (this == o) return true;",
        s!"if (!(o instanceof {type} other)) return false;",
        "return " ++ " && ".intercalate (names.map fun n => s!"Objects.equals({n}, other.{n})")
          ++ ";"],
      "",
      "@Override",
      block "public int hashCode()" ["return Objects.hash(" ++ commas names ++ ");"]]]

/-! ### Inputs

The class that rows are created and changed with.
-/

/-- The check of the length of a text. -/
def lengthCheck (f : Field) : List String :=
  match f.type.length, f.sqlType.isTextual with
  | some n, true => [s!"@Size(max = {n})"]
  | _, _ => []

/-- The member of an input. -/
def inputMember (b : Blueprint) (f : Field) : List Code := [
  "",
  when b.features.validation [
    when f.isRequiredInput ["@NotNull(groups = OnCreate.class)"],
    ofLines (lengthCheck f)],
  "private " ++ boxed b f ++ " " ++ ident f.name ++ ";"]

/-- The source of the inputs. -/
def inputSource (b : Blueprint) (e : Entity) : List Code :=
  let fields := e.inputFields
  let need (condition : Bool) (path : String) : List String := if condition then [path] else []
  let imports :=
    typeImports b fields
      ++ need (b.features.validation && fields.any (·.isRequiredInput))
        "jakarta.validation.constraints.NotNull"
      ++ need (b.features.validation && fields.any fun f => !(lengthCheck f).isEmpty)
        "jakarta.validation.constraints.Size"
  source b "dto" imports [
    "/** Create and update payload; absent members are left unchanged on update. */",
    block s!"public class {e.names.entity}Request" [
      each fields (inputMember b),
      each fields fun f => accessors (boxed b f) (ident f.name)]]

end CrudGen.Java
