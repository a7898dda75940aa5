import CrudGen.Server.Rust.Repository
import CrudGen.Server.Rust.Routes
import CrudGen.Server.Rust.Service
import CrudGen.Server.Rust.Shared

/-!
# Rust servers

Servers on a pool of database connections, with either of two web frameworks.
-/

namespace CrudGen.Rust

/-- The files of an entity. -/
def entityFiles (framework : Framework) (b : Blueprint) (e : Entity) : List SourceFile :=
  let file (directory : String) (code : List Code) : SourceFile :=
    (s!"src/{directory}/{e.names.file}.rs", Code.text code)
  [ file "models" (rowModule e),
    file "dto" (inputModule b e),
    file "repositories" (repositoryModule b e),
    file "services" (serviceModule b e),
    file "routes" (match framework with
      | .axum => Axum.routeModule b e
      | .actix => Actix.routeModule b e) ]

/-- The files that all entities share. -/
def sharedFiles (framework : Framework) (b : Blueprint) : List SourceFile :=
  let file (path : String) (code : List Code) : SourceFile := (s!"src/{path}.rs", Code.text code)
  let f := b.features
  [ file "models/mod" [moduleIndex b],
    file "dto/mod" [moduleIndex b],
    file "repositories/mod" [moduleIndex b],
    file "services/mod" [moduleIndex b],
    file "routes/mod" (routeIndex framework b),
    file "state" (stateModule b),
    file "error" (errorModule framework b),
    file "main" (mainModule framework b) ]
  ++ (if f.pagination then [file "pagination" paginationModule] else [])
  ++ (if f.auth then
    [file "auth" (match framework with
      | .axum => axumAuthModule
      | .actix => actixAuthModule)] else [])
  ++ (if f.rateLimit then [file "rate_limit" rateLimitModule] else [])
  ++ (if f.caching then [file "cache" cacheModule] else [])

/-- The writer of Rust servers. -/
def emitter (framework : Framework) : Emitter :=
  .ofFiles (entityFiles framework) (sharedFiles framework)

end CrudGen.Rust
