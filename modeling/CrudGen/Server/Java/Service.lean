import CrudGen.Server.Java.Basic

/-!
# Services and controllers in Java

The rows of an entity are reached through a repository, a repository through a service, and a service
through a controller.
-/

namespace CrudGen.Java

open Code

/-! ### Repositories and services

A service stands between a controller and a repository. It keeps single rows in a cache if that is
asked for, and reports rows that are not there.
-/

/-- The source of a repository. -/
def repositorySource (b : Blueprint) (e : Entity) : List Code :=
  let name := e.names.entity
  let identity := Identity.ofEntity e
  let imports :=
    [ownClass b "entity" name, "org.springframework.data.jpa.repository.JpaRepository"]
      ++ (match identity with
        | .single f => typeImports b [f]
        | .composite _ => [ownClass b "entity" s!"{name}Id"])
  source b "repository" imports [
    block (s!"public interface {name}Repository extends JpaRepository<{name}, "
      ++ identity.type b e ++ ">") []]

/-- What a service imports. -/
def serviceImports (b : Blueprint) (e : Entity) (caching : Bool) : List String :=
  let name := e.names.entity
  let need (condition : Bool) (paths : List String) : List String := if condition then paths else []
  let keyed := !e.keyFields.isEmpty
  [ ownClass b "dto" s!"{name}Request",
    ownClass b "entity" name,
    ownClass b "repository" s!"{name}Repository",
    "org.springframework.stereotype.Service",
    "org.springframework.transaction.annotation.Transactional" ]
  ++ (if b.features.pagination then
    ["org.springframework.data.domain.Page", "org.springframework.data.domain.Pageable"]
    else ["java.util.List"])
  ++ need keyed (ownClass b "exception" "NotFoundException" :: typeImports b e.keyFields)
  ++ need (e.keyFields.length > 1) [ownClass b "entity" s!"{name}Id"]
  ++ need caching [
    "org.springframework.cache.annotation.CacheEvict",
    "org.springframework.cache.annotation.CachePut",
    "org.springframework.cache.annotation.Cacheable"]

/-- The expression for the text under which a row is cached. -/
def cacheKey (e : Entity) : String :=
  " + '/' + ".intercalate (e.keyFields.map fun f => "#" ++ ident f.name)

/-- Keeps the cache in step with a method. -/
def cached (e : Entity) (caching : Bool) (mark : String) : Code :=
  when caching [
    s!"@{mark}(cacheNames = " ++ literal e.names.table ++ ", key = " ++ literal (cacheKey e)
      ++ ")"]

/-- The methods that change, delete and find a row. -/
def keyMethods (b : Blueprint) (e : Entity) (caching : Bool) : List Code :=
  let name := e.names.entity
  let params := keyParams b e
  let identity := identityOf e
  [ "",
    cached e caching "CachePut",
    block s!"public {name} update({params}, {name}Request request)" [
      s!"{name} entity = find({identity});",
      "apply(entity, request);",
      "return repository.save(entity);"],
    "",
    cached e caching "CacheEvict",
    block s!"public void delete({params})" [s!"repository.delete(find({identity}));"],
    "",
    block (s!"private {name} find(" ++ (Identity.ofEntity e).type b e ++ " id)") [
      "return repository.findById(id)",
      "        .orElseThrow(() -> new NotFoundException(" ++ literal name ++ ", id));"] ]

/-- The method that gives a row the values that an input comes with. -/
def applyMethod (e : Entity) : Code :=
  let name := e.names.entity
  block s!"private void apply({name} entity, {name}Request request)" [
    each e.inputFields fun f =>
      let suffix := capitalized (ident f.name)
      [ block s!"if (request.get{suffix}() != null)" [
          s!"entity.set{suffix}(request.get{suffix}());"] ]]

/-- The source of a service. -/
def serviceSource (b : Blueprint) (e : Entity) : List Code :=
  let name := e.names.entity
  let keyed := !e.keyFields.isEmpty
  let caching := b.features.caching && keyed
  source b "service" (serviceImports b e caching) [
    "@Service",
    "@Transactional",
    block s!"public class {name}Service" [
      "",
      s!"private final {name}Repository repository;",
      "",
      block s!"public {name}Service({name}Repository repository)" [
        "this.repository = repository;"],
      "",
      "@Transactional(readOnly = true)",
      if b.features.pagination then
        block s!"public Page<{name}> list(Pageable pageable)" [
          "return repository.findAll(pageable);"]
      else
        block s!"public List<{name}> list()" ["return repository.findAll();"],
      when keyed [
        "",
        cached e caching "Cacheable",
        "@Transactional(readOnly = true)",
        block (s!"public {name} get(" ++ keyParams b e ++ ")") [
          "return find(" ++ identityOf e ++ ");"]],
      "",
      block s!"public {name} create({name}Request request)" [
        s!"{name} entity = new {name}();",
        "apply(entity, request);",
        "return repository.save(entity);"],
      when keyed (keyMethods b e caching),
      "",
      applyMethod e]]

/-! ### Controllers

A controller has the handlers of an entity on the paths that lead to them.
-/

/-- What a controller imports. -/
def controllerImports (b : Blueprint) (e : Entity) : List String :=
  let name := e.names.entity
  let paged :=
    [ownClass b "dto" "PageResponse", "org.springframework.data.domain.PageRequest"]
      ++ (if e.keyFields.isEmpty then [] else ["org.springframework.data.domain.Sort"])
  let checked :=
    [ownClass b "dto" "OnCreate", "jakarta.validation.groups.Default",
      "org.springframework.validation.annotation.Validated"]
  [ ownClass b "dto" s!"{name}Request",
    ownClass b "entity" name,
    ownClass b "service" s!"{name}Service",
    "org.springframework.http.HttpStatus",
    "org.springframework.web.bind.annotation.*" ]
  ++ typeImports b e.keyFields
  ++ (if b.features.pagination then paged else ["java.util.List"])
  ++ (if b.features.validation then checked else [])

/-- The handler that lists rows. -/
def listHandler (b : Blueprint) (e : Entity) : List Code :=
  let name := e.names.entity
  let order := commas (e.keyFields.map fun f => literal (ident f.name))
  let sort := if e.keyFields.isEmpty then "" else s!", Sort.by({order})"
  "@GetMapping" :: (if b.features.pagination then [
    s!"public PageResponse<{name}> list(",
    "        @RequestParam(defaultValue = \"1\") int page,",
    block "        @RequestParam(name = \"per_page\", defaultValue = \"20\") int perPage)" [
      "PageRequest request = PageRequest.of(Math.max(page, 1) - 1, "
        ++ s!"Math.min(Math.max(perPage, 1), 100){sort});",
      "return PageResponse.of(service.list(request));"]]
  else [block s!"public List<{name}> list()" ["return service.list();"]])

/-- A part of a key as a parameter of a handler. -/
def pathParam (b : Blueprint) (f : Field) : String :=
  "@PathVariable(" ++ literal f.column ++ ") " ++ boxed b f ++ " " ++ ident f.name

/-- The source of a controller. -/
def controllerSource (b : Blueprint) (e : Entity) : List Code :=
  let name := e.names.entity
  let keyed := !e.keyFields.isEmpty
  let path := String.join (e.keyFields.map fun f => "/" ++ Text.braced f.column)
  let params := commas (e.keyFields.map (pathParam b))
  let args := keyArgs e
  let checked (mark : String) : String := if b.features.validation then mark else ""
  source b "controller" (controllerImports b e) [
    "@RestController",
    s!"@RequestMapping(\"/api/{e.names.route}\")",
    block s!"public class {name}Controller" [
      "",
      s!"private final {name}Service service;",
      "",
      block s!"public {name}Controller({name}Service service)" ["this.service = service;"],
      "",
      all (listHandler b e),
      when keyed [
        "",
        s!"@GetMapping(\"{path}\")",
        block s!"public {name} get({params})" [s!"return service.get({args});"]],
      "",
      "@PostMapping",
      "@ResponseStatus(HttpStatus.CREATED)",
      block (s!"public {name} create("
          ++ checked "@Validated(\x7bOnCreate.class, Default.class\x7d) "
          ++ s!"@RequestBody {name}Request request)") [
        "return service.create(request);"],
      when keyed [
        "",
        s!"@PutMapping(\"{path}\")",
        block (s!"public {name} update({params}, " ++ checked "@Validated "
            ++ s!"@RequestBody {name}Request request)") [
          s!"return service.update({args}, request);"],
        "",
        s!"@DeleteMapping(\"{path}\")",
        "@ResponseStatus(HttpStatus.NO_CONTENT)",
        block s!"public void delete({params})" [s!"service.delete({args});"]]]]

end CrudGen.Java
