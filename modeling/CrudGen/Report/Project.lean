import CrudGen.Archive.Basic
import CrudGen.Report.TextTable
import CrudGen.Server.Generation

/-!
# Reports on projects

Tables of text about targets and archives.
-/

namespace CrudGen

open String (intercalate)

/-- A table of targets with their features and versions. -/
def Profile.report (ps : List Profile) : String :=
  TextTable.render {
    headers := ["TARGET", "EXT", "FEATURES", "DEPENDENCIES"]
    rows := ps.map fun p =>
      [p.key.text, p.extension, intercalate "," p.features,
        intercalate " " (p.dependencies.map fun (name, version) => name ++ "@" ++ version)] }

/-- A table of the targets that a generator can write. -/
def Generator.report (g : Generator) : String :=
  Profile.report (g.targets.filterMap g.profiles.get?)

/-- A table of the files of an archive, with their number and size below. -/
def Archive.report (a : Archive) : String :=
  TextTable.render {
    headers := ["PATH", "ORIGIN", "BYTES"]
    rows := a.manifest.map fun e => [e.path, e.origin.name, toString e.size] }
  ++ toString a.files.length ++ " file(s), " ++ toString a.totalSize ++ " byte(s)\n"

end CrudGen
