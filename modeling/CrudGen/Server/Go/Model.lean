import CrudGen.Server.Go.Basic
import CrudGen.Text.Basic

/-!
# Models in Go

The structure of a row: its columns and its relations to other structures.
-/

namespace CrudGen.Go

open Code

/-- How the member of a column is stored. -/
def columnTag (f : Field) : String :=
  let option (condition : Bool) (text : String) : List String := if condition then [text] else []
  let type :=
    match f.type.precision, f.type.scale with
    | some p, some s => [s!"type:numeric({p},{s})"]
    | _, _ => []
  ";".intercalate (
    [s!"column:{f.column}"]
      ++ option f.primaryKey "primaryKey"
      ++ option f.autoIncrement "autoIncrement"
      ++ type
      ++ option (!f.type.nullable && !f.primaryKey) "not null"
      ++ option (f.unique && !f.primaryKey) "unique"
      ++ (f.default.toList.map fun d =>
        "default:" ++ String.ofList (Text.escaped [';'] d.toList)))

/-- The members that some columns of a table are. -/
def memberNames (b : Blueprint) (table : String) (columns : List String) : String :=
  ",".intercalate (columns.map (b.fieldName table))

/-- How the member of a relation is stored. -/
def relationTag (b : Blueprint) (e : Entity) (r : Relation) : String :=
  let here := memberNames b e.table.name r.localColumns
  let there := memberNames b r.targetTable r.remoteColumns
  match r.via, r.inverse with
  | some junction, _ =>
    s!"many2many:{junction.table};foreignKey:{here};joinForeignKey:"
      ++ ",".intercalate junction.localColumns ++ s!";references:{there};joinReferences:"
      ++ ",".intercalate junction.remoteColumns
  | none, false => s!"foreignKey:{here};references:{there}"
  | none, true => s!"foreignKey:{there};references:{here}"

/-- The member of a relation. -/
def relationMember (b : Blueprint) (e : Entity) (r : Relation) : String :=
  let single := r.via.isNone && (!r.inverse || r.kind == .oneToOne)
  let type := if single then "*" ++ r.targetEntity else "[]" ++ r.targetEntity
  r.name ++ " " ++ type ++ " `gorm:\"" ++ relationTag b e r ++ "\" json:\""
    ++ Casing.toSnake r.name ++ ",omitempty\"`"

/-- The source of a model. -/
def modelSource (b : Blueprint) (e : Entity) : List Code :=
  let name := e.names.entity
  sourceOf b "models" (typeImports b e.fields) [
    block s!"type {name} struct" [
      each e.fields fun f => [
        whenSome f.comment fun comment => [s!"// {comment}"],
        s!"{f.name} {f.type.name} `gorm:\"" ++ columnTag f ++ s!"\" json:\"{f.column}\"`"],
      when (!e.relations.isEmpty) [
        "",
        each e.relations fun r => [relationMember b e r]]],
    "",
    block s!"func ({name}) TableName() string" ["return " ++ quoted e.table.name]]

/-! ### Inputs

The structures that rows are created and changed with.
-/

/-- The name of the tag that says what a member is checked for. -/
def Framework.checkTag : Framework → String
  | .gin => "binding"
  | .echo => "validate"

/-- The check of the length of a text. -/
def lengthCheck (validation : Bool) (f : Field) : List String :=
  match f.type.length, validation && f.sqlType.isTextual with
  | some n, true => [s!"max={n}"]
  | _, _ => []

/-- The tag with the checks of a member. -/
def checks (framework : Framework) (rules : List String) : String :=
  " " ++ framework.checkTag ++ ":" ++ quoted (",".intercalate rules)

/-- A member of what rows are created with. Members that may be left out are pointers. -/
def createMember (framework : Framework) (validation : Bool) (f : Field) : String :=
  let required := f.isRequiredInput
  let type := if required || f.type.nullable then f.type.name else "*" ++ f.type.inner
  let length := lengthCheck validation f
  let rules := (if required then "required" else "omitempty") :: length
  let tag :=
    if validation && (required || !length.isEmpty) then checks framework rules else ""
  f.name ++ " " ++ type ++ " `json:" ++ quoted f.column ++ tag ++ "`"

/-- A member of what rows are changed with. -/
def updateMember (framework : Framework) (validation : Bool) (f : Field) : String :=
  let tag :=
    match lengthCheck validation f with
    | [] => ""
    | length => checks framework ("omitempty" :: length)
  s!"{f.name} *{f.type.inner} `json:\"{f.column},omitempty\"" ++ tag ++ "`"

/-- The source of the inputs. -/
def inputSource (framework : Framework) (b : Blueprint) (e : Entity) : List Code :=
  let validation := b.features.validation
  sourceOf b "dto" (typeImports b e.inputFields) [
    block s!"type Create{e.names.entity}Request struct" [
      each e.inputFields fun f => [createMember framework validation f]],
    "",
    block s!"type Update{e.names.entity}Request struct" [
      each e.inputFields fun f => [updateMember framework validation f]]]

end CrudGen.Go
