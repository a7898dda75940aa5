import CrudGen.Main
import CrudGen.Proofs.Catalog.Failure
import CrudGen.Proofs.Catalog.PrimaryKey
import CrudGen.Proofs.Catalog.Spelling
import CrudGen.Proofs.Schema.Circles
import CrudGen.Proofs.Schema.Endpoints
import CrudGen.Proofs.Schema.ForeignKeys
import CrudGen.Proofs.Schema.Order
import CrudGen.Proofs.Schema.Reorder
import CrudGen.Proofs.Naming.Numbered
import CrudGen.Proofs.Entity.Names
import CrudGen.Proofs.Entity.Relations
import CrudGen.Proofs.Entity.Joins
import CrudGen.Proofs.Entity.Members
import CrudGen.Proofs.Server.Counterpart
import CrudGen.Proofs.Naming.Singular
import CrudGen.Proofs.Naming.Plural
import CrudGen.Proofs.Server.FileSet
import CrudGen.Proofs.Server.Isolation
import CrudGen.Proofs.Archive.Assembly
import CrudGen.Proofs.Schema.Dialects
import CrudGen.Proofs.Sql.Joined
import CrudGen.Proofs.Server.Layout
import CrudGen.Proofs.Server.Targets
import CrudGen.Proofs.Text.Lower
import CrudGen.Proofs.Target.Key
import CrudGen.Proofs.Archive.Generated
import CrudGen.Proofs.Archive.Loading
import CrudGen.Proofs.Catalog.Enumerations
import CrudGen.Proofs.Catalog.Arrangement
import CrudGen.Proofs.Sql.Composition
import CrudGen.Proofs.Sql.Defaults
import CrudGen.Proofs.Sql.Identity
import CrudGen.Proofs.Sql.ElementKinds
import CrudGen.Proofs.Catalog.Quoted
import CrudGen.Proofs.Catalog.Repeated
import CrudGen.Proofs.Schema.Precedence
import CrudGen.Proofs.Sql.Interleaved
import CrudGen.Proofs.Sql.ReadBack
import CrudGen.Proofs.Schema.OneToOne
import CrudGen.Proofs.Entity.Deferral
import CrudGen.Proofs.Target.Fallback
import CrudGen.Proofs.Catalog.TwoSteps
import CrudGen.Proofs.Server.Calls.Placeholders
import CrudGen.Proofs.Server.Calls.Marked
import CrudGen.Proofs.Server.Calls.RawLiterals
import CrudGen.Proofs.Server.Statements.Quoting
import CrudGen.Proofs.Server.CacheKeys
import CrudGen.Proofs.Server.Calls.Omitted
import CrudGen.Proofs.Server.Literals
import CrudGen.Proofs.Server.Comments
import CrudGen.Proofs.Server.JoinColumns
import CrudGen.Proofs.Sql.DeclaredNames
import CrudGen.Proofs.Sql.Progress
import CrudGen.Proofs.Catalog.DeclaredEnums
