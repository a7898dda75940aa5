import CrudGen.Server.Python.Model
import CrudGen.Server.Python.FastApi
import CrudGen.Server.Python.Flask
import CrudGen.Server.Python.Repository

/-!
# Python servers

Servers with mapped classes, with either of two web frameworks.
-/

namespace CrudGen.Python

open Code

/-- A file of Python. -/
def sourceFile (path : String) (code : List Code) : SourceFile :=
  (s!"app/{path}.py", Code.text code)

/-- The files of an entity. -/
def entityFiles (framework : Framework) (b : Blueprint) (e : Entity) : List SourceFile :=
  let file (directory : String) (code : List Code) : SourceFile :=
    sourceFile (directory ++ "/" ++ moduleOf e) code
  [ file "models" (modelModule framework b e),
    file "schemas" (match framework with
      | .fastApi => FastApi.schemaModule b e
      | .flask => Flask.schemaModule b e),
    file "repositories" (repositoryModule framework b e),
    file "services" (serviceModule framework b e),
    file "routes" (match framework with
      | .fastApi => FastApi.routeModule b e
      | .flask => Flask.routeModule b e) ]

/-- The module through which all models are imported. -/
def modelIndex (b : Blueprint) : List Code := [
  "from app.models.associations import *  # noqa: F401,F403",
  each b.entities fun e => ["from app.models." ++ moduleOf e ++ s!" import {e.names.entity}"],
  "",
  "__all__ = [" ++ commas (b.entities.map fun e => literal e.names.entity) ++ "]"]

/-- The files that all entities share with FastAPI. -/
def FastApi.sharedFiles (b : Blueprint) : List SourceFile :=
  let f := b.features
  [ sourceFile "main" (mainModule b),
    sourceFile "routes/__init__" [],
    sourceFile "database" databaseModule ]
  ++ (if f.pagination then [sourceFile "pagination" paginationModule] else [])
  ++ (if f.auth then [sourceFile "auth" authModule] else [])
  ++ (if f.rateLimit then [sourceFile "rate_limit" rateLimitModule] else [])
  ++ (if f.caching then [sourceFile "cache" cacheModule] else [])

/-- The files that all entities share with Flask. -/
def Flask.sharedFiles (b : Blueprint) : List SourceFile :=
  let f := b.features
  [ sourceFile "factory" (factoryModule b),
    sourceFile "routes/__init__" [],
    sourceFile "extensions" (extensionModule b) ]
  ++ (if f.pagination then [sourceFile "pagination" paginationModule] else [])
  ++ (if f.auth then [sourceFile "auth" authModule] else [])

/-- The files that all entities share. -/
def sharedFiles (framework : Framework) (b : Blueprint) : List SourceFile :=
  [ sourceFile "__init__" [],
    sourceFile "models/__init__" (modelIndex b),
    sourceFile "models/associations" (associationModule framework b),
    sourceFile "schemas/__init__" [],
    sourceFile "repositories/__init__" [],
    sourceFile "services/__init__" [] ]
  ++ (match framework with
    | .fastApi => FastApi.sharedFiles b
    | .flask => Flask.sharedFiles b)

/-- The writer of Python servers. -/
def emitter (framework : Framework) : Emitter :=
  .ofFiles (entityFiles framework) (sharedFiles framework)

end CrudGen.Python
