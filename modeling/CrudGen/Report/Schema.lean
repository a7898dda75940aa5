import CrudGen.Diagnostic
import CrudGen.Report.TextTable
import CrudGen.Schema.Basic

/-!
# Reports

Tables of text about diagnostics and schemas.
-/

namespace CrudGen

open String (intercalate)

/-- A table of diagnostics. -/
def Diagnostic.report (ds : List Diagnostic) : String :=
  if ds.isEmpty then "no diagnostics\n"
  else TextTable.render {
    headers := ["SEVERITY", "KIND", "MESSAGE"]
    rows := ds.map fun d => [d.severity.name, d.code, d.text] }

namespace Schema

/-- A table of the tables of a schema. -/
def tableReport (s : Schema) : TextTable where
  headers := ["TABLE", "KIND", "COLUMNS", "PRIMARY KEY"]
  rows := s.classified.map fun (t, kind) =>
    [t.name, kind.name ++ (if s.isDeferred t.name then " (deferred)" else ""),
      toString t.columns.length, intercalate ", " t.primaryKey]

/-- A table of the relationships of a schema. -/
def relationshipReport (s : Schema) : TextTable where
  headers := ["OWNER", "KIND", "TARGET", "COLUMNS", "VIA"]
  rows := s.relationships.map fun r =>
    [r.owner, r.kind.name, r.target, intercalate ", " r.columns, r.via.getD ""]

/-- The tables, relationships and generation order of a schema. -/
def report (s : Schema) : String :=
  let relationships := s.relationshipReport
  s.tableReport.render ++ "\n"
    ++ (if relationships.isEmpty then "no relationships\n" else relationships.render)
    ++ "\norder: " ++ intercalate " -> " s.order ++ "\n"
    ++ String.join (s.cycles.map fun c => "cycle: " ++ intercalate " <-> " c.tables ++ "\n")

end Schema

end CrudGen
