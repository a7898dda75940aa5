import CrudGen.Server.Java.Service
import CrudGen.Server.Java.Entity
import CrudGen.Server.Java.Shared

/-!
# Java servers

Servers with mapped classes.
-/

namespace CrudGen.Java

/-- A file of Java: the source of a class. -/
def classFile (b : Blueprint) (inPackage name : String) (code : List Code) : SourceFile :=
  (classPath b inPackage name, Code.text code)

/-- The files of an entity. -/
def entityFiles (b : Blueprint) (e : Entity) : List SourceFile :=
  let name := e.names.entity
  let identity :=
    match Identity.ofEntity e with
    | .single _ => []
    | .composite fields => [classFile b "entity" s!"{name}Id" (identitySource b e fields)]
  [classFile b "entity" name (entitySource b e)] ++ identity ++ [
    classFile b "dto" s!"{name}Request" (inputSource b e),
    classFile b "repository" s!"{name}Repository" (repositorySource b e),
    classFile b "service" s!"{name}Service" (serviceSource b e),
    classFile b "controller" s!"{name}Controller" (controllerSource b e)]

/-- The files that all entities share. -/
def sharedFiles (b : Blueprint) : List SourceFile :=
  let f := b.features
  [ classFile b "" (applicationName b) (applicationSource b),
    classFile b "exception" "NotFoundException" (notFoundSource b),
    classFile b "exception" "GlobalExceptionHandler" (exceptionHandlerSource b),
    classFile b "controller" "HealthController" (healthSource b) ]
  ++ (if f.validation then [classFile b "dto" "OnCreate" (onCreateSource b)] else [])
  ++ (if f.pagination then [classFile b "dto" "PageResponse" (pageSource b)] else [])
  ++ (if f.auth then [classFile b "config" "SecurityConfig" (securitySource b)] else [])
  ++ (if f.rateLimit then [classFile b "config" "RateLimitFilter" (rateLimitSource b)] else [])
  ++ [("src/main/resources/application.properties", Code.text (properties b))]

/-- The writer of Java servers. -/
def emitter : Emitter :=
  .ofFiles entityFiles sharedFiles

end CrudGen.Java
