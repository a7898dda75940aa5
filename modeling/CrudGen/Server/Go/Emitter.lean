import CrudGen.Server.Go.Model
import CrudGen.Server.Go.Repository
import CrudGen.Server.Go.Handler
import CrudGen.Server.Go.Shared

/-!
# Go servers

Servers with mapped structures, with either of two web frameworks.
-/

namespace CrudGen.Go

/-- A file of Go. -/
def sourceFile (path : String) (code : List Code) : SourceFile :=
  (s!"{path}.go", Code.text code)

/-- The files of an entity. -/
def entityFiles (framework : Framework) (b : Blueprint) (e : Entity) : List SourceFile :=
  let file (directory : String) (code : List Code) : SourceFile :=
    sourceFile s!"internal/{directory}/{e.names.file}" code
  [ file "models" (modelSource b e),
    file "dto" (inputSource framework b e),
    file "repository" (repositorySource b e),
    file "service" (serviceSource b e),
    file "handler" (handlerSource framework b e) ]

/-- The files that all entities share. -/
def sharedFiles (framework : Framework) (b : Blueprint) : List SourceFile :=
  let f := b.features
  [ sourceFile "cmd/server/main" (mainSource framework b),
    sourceFile "internal/router/router" (routerSource framework b),
    sourceFile "internal/database/database" databaseSource,
    sourceFile "internal/service/errors" serviceErrorSource,
    sourceFile "internal/handler/errors" (handlerErrorSource framework b) ]
  ++ (if framework == .echo && f.validation then
    [sourceFile "internal/handler/validator" validatorSource] else [])
  ++ (if f.pagination then [sourceFile "internal/pagination/pagination" paginationSource] else [])
  ++ (if f.auth then [sourceFile "internal/middleware/auth" (authSource framework)] else [])
  ++ (if f.rateLimit && framework == .gin then
    [sourceFile "internal/middleware/rate_limit" rateLimitSource] else [])
  ++ (if f.caching then [sourceFile "internal/cache/cache" cacheSource] else [])

/-- The writer of Go servers. -/
def emitter (framework : Framework) : Emitter :=
  .ofFiles (entityFiles framework) (sharedFiles framework)

end CrudGen.Go
