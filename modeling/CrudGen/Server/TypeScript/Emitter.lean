import CrudGen.Server.TypeScript.Express
import CrudGen.Server.TypeScript.Nest

/-!
# TypeScript servers

Servers with SQL text of their own on one framework, servers with mapped entities on the other.
-/

namespace CrudGen.TypeScript

/-- A file of TypeScript. -/
def sourceFile (path : String) (code : List Code) : SourceFile :=
  (s!"src/{path}.ts", Code.text code)

/-- The files of an entity with Express. -/
def Express.entityFiles (b : Blueprint) (e : Entity) : List SourceFile :=
  let file := e.names.file
  [ sourceFile s!"models/{file}" (rowModule e),
    sourceFile s!"dto/{file}.dto" (inputModule b e),
    sourceFile s!"repositories/{file}.repository" (repositoryModule b e),
    sourceFile s!"services/{file}.service" (serviceModule b e),
    sourceFile s!"routes/{file}.routes" (routeModule b e) ]

/-- The files that all entities share with Express. -/
def Express.sharedFiles (b : Blueprint) : List SourceFile :=
  let f := b.features
  [ sourceFile "routes/index" (routeIndex b),
    sourceFile "app" (appModule b),
    sourceFile "server" (serverModule b),
    sourceFile "db" databaseModule,
    sourceFile "middleware/error" (errorModule b) ]
  ++ (if f.pagination then [sourceFile "pagination" paginationModule] else [])
  ++ (if f.auth then [sourceFile "middleware/auth" authModule] else [])
  ++ (if f.rateLimit then [sourceFile "middleware/rate-limit" rateLimitModule] else [])

/-- The files of an entity with Nest. -/
def Nest.entityFiles (b : Blueprint) (e : Entity) : List SourceFile :=
  let file := e.names.file
  [ sourceFile s!"{file}/{file}.entity" (entityModule b e),
    sourceFile s!"{file}/dto/{file}.dto" (inputModule b e),
    sourceFile s!"{file}/{file}.repository" (repositoryModule b e),
    sourceFile s!"{file}/{file}.service" (serviceModule b e),
    sourceFile s!"{file}/{file}.controller" (controllerModule b e),
    sourceFile s!"{file}/{file}.module" (moduleModule e) ]

/-- The files that all entities share with Nest. -/
def Nest.sharedFiles (b : Blueprint) : List SourceFile :=
  let f := b.features
  [ sourceFile "app.module" (appModule b),
    sourceFile "main" (mainModule b) ]
  ++ (if f.pagination then [sourceFile "common/pagination" paginationModule] else [])
  ++ (if f.auth then [sourceFile "common/jwt.guard" guardModule] else [])

/-- The writer of TypeScript servers. -/
def emitter : Framework → Emitter
  | .express => .ofFiles Express.entityFiles Express.sharedFiles
  | .nest => .ofFiles Nest.entityFiles Nest.sharedFiles

end CrudGen.TypeScript
