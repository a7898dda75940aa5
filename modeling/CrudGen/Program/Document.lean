import CrudGen.Data.Json
import CrudGen.Server.BuiltIn

/-!
# Projects as a document

What a request gave as one JSON document, and the document of a request whose targets stand in one
text.
-/

namespace CrudGen

/-- A diagnostic as an object. -/
def Diagnostic.toJson (d : Diagnostic) : JsonValue :=
  .object (match d with
    | .parse e => [("kind", .text "parse"), ("statement", .number e.statement),
      ("snippet", .text e.excerpt), ("reason", .text e.reason)]
    | .cycle c => [("kind", .text "cycle"), ("tables", .texts c.tables)]
    | .unsupportedTarget u => [("kind", .text "unsupported_target"), ("target", .text u.target),
      ("reason", .text u.reason)]
    | .unmappedType u => [("kind", .text "unmapped_type"), ("target", .text u.target),
      ("table", .text u.table), ("column", .text u.column), ("sql_type", .text u.sqlType),
      ("fallback", .text u.fallback)]
    | .unresolvedReference u => [("kind", .text "unresolved_reference"), ("table", .text u.table),
      ("columns", .texts u.columns), ("target", .text u.target), ("reason", .text u.reason)]
    | .generation target message => [("kind", .text "generation"), ("target", .text target),
      ("message", .text message)])

/-- An object with one member for each target. -/
def Generation.byTarget (entries : Dict TargetKey α) (texts : α → Dict String String) : JsonValue :=
  let members := entries.map fun (key, a) =>
    (key.text, JsonValue.object ((texts a).map fun (name, s) => (name, .text s)))
  .object (Dict.ofList members)

/-- The files, versions and diagnostics that a request gave. -/
def Generation.toJson (g : Generation) : JsonValue :=
  .object [
    ("targets", byTarget g.fileSets (·.files)),
    ("dependencies", byTarget g.pins id),
    ("diagnostics", .list (g.diagnostics.map Diagnostic.toJson))]

/-- The targets in a text, with commas or blanks between them. What is wrong with the first that is
none is the error. -/
def targetList (s : String) : Except String (List TargetKey) :=
  let pieces := (Text.splitAll (fun c => c == ',' || c == ' ') s.toList).filter (!·.isEmpty)
  pieces.mapM fun piece =>
    (TargetKey.ofText (String.ofList piece)).mapError TargetKey.invalidMessage

/-- The document of the projects that a script gives. -/
def projectDocument (ddl targets : String) (project : String := "app") : Except String String := do
  let keys ← targetList targets
  match Generator.builtIn.run { ddl, targets := keys, project } with
  | .ok generation => return generation.toJson.pretty ""
  | .error e => throw e.message

end CrudGen
