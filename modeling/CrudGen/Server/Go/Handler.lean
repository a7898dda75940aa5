import CrudGen.Server.Go.Basic

/-!
# Handlers in Go

The handlers of the entities, and the server that is started with them.
-/

namespace CrudGen.Go

open Code

/-! ### Handlers

The handlers of an entity on the paths that lead to them, for both frameworks.
-/

namespace Framework

/-- The path of a framework. -/
def path : Framework → String
  | .gin => "github.com/gin-gonic/gin"
  | .echo => "github.com/labstack/echo/v4"

/-- The parameters and results of a handler. -/
def signature : Framework → String
  | .gin => "(c *gin.Context)"
  | .echo => "(c echo.Context) error"

/-- The expression for the context of a request. -/
def requestContext : Framework → String
  | .gin => "c.Request.Context()"
  | .echo => "c.Request().Context()"

/-- The expression for a parameter of a query. -/
def query (framework : Framework) (name : String) : String :=
  match framework with
  | .gin => "c.Query(" ++ quoted name ++ ")"
  | .echo => "c.QueryParam(" ++ quoted name ++ ")"

/-- The type of a group of routes. -/
def groupType : Framework → String
  | .gin => "*gin.RouterGroup"
  | .echo => "*echo.Group"

/-- Answers with an error of a service. -/
def failWith : Framework → List Code
  | .gin => ["respondError(c, err)", "return"]
  | .echo => ["return toHTTPError(err)"]

/-- Answers that a request cannot be understood. -/
def reject (framework : Framework) (status message : String) : List Code :=
  match framework with
  | .gin => [s!"c.JSON({status}, gin.H\x7b\"error\": {message}\x7d)", "return"]
  | .echo => [s!"return echo.NewHTTPError({status}, {message})"]

/-- Answers a request. -/
def reply (framework : Framework) (status body : String) : String :=
  match framework with
  | .gin => s!"c.JSON({status}, {body})"
  | .echo => s!"return c.JSON({status}, {body})"

/-- Answers a request with nothing. -/
def noContent : Framework → String
  | .gin => "c.Status(http.StatusNoContent)"
  | .echo => "return c.NoContent(http.StatusNoContent)"

/-- Reads an input, and checks it if that is asked for. -/
def bind (framework : Framework) (validation : Bool) : Code :=
  match framework with
  | .gin =>
    block "if err := c.ShouldBindJSON(&req); err != nil"
      (framework.reject "http.StatusUnprocessableEntity" "err.Error()")
  | .echo => all [
    block "if err := c.Bind(&req); err != nil"
      (framework.reject "http.StatusBadRequest" "err.Error()"),
    when validation [
      block "if err := c.Validate(&req); err != nil"
        (framework.reject "http.StatusUnprocessableEntity" "err.Error()")]]

end Framework

/-- Answers with an error of a service, if there is one. -/
def failed (framework : Framework) : Code :=
  block "if err != nil" framework.failWith

/-- Reads a part of a key from the path of a request. -/
def parsePart (framework : Framework) (f : Field) : List Code :=
  let name := param f
  let raw := s!"c.Param(\"{f.column}\")"
  let invalid :=
    block "if err != nil"
      (framework.reject "http.StatusBadRequest" (quoted s!"invalid {f.column}"))
  let narrow (bits : String) : List Code := [
    s!"{name}Value, err := strconv.ParseInt({raw}, 10, {bits})",
    invalid,
    s!"{name} := int{bits}({name}Value)"]
  match f.type.inner with
  | "int64" => [s!"{name}, err := strconv.ParseInt({raw}, 10, 64)", invalid]
  | "int32" => narrow "32"
  | "int16" => narrow "16"
  | "uuid.UUID" => [s!"{name}, err := uuid.Parse({raw})", invalid]
  | _ => [s!"{name} := {raw}"]

/-- What reading a part of a key needs. -/
def partImports (f : Field) : List String :=
  match f.type.inner with
  | "int64" | "int32" | "int16" => ["strconv"]
  | "uuid.UUID" => ["github.com/google/uuid"]
  | _ => []

/-- A handler. -/
def handlerMethod (framework : Framework) (e : Entity) (name : String) (body : List Code) : Code :=
  block (s!"func (h *{e.names.entity}Handler) {name}" ++ framework.signature) body

/-- The method that puts the handlers on their paths. -/
def registerMethod (framework : Framework) (e : Entity) : Code :=
  let item := quoted (String.join (e.keyFields.map fun f => s!"/:{f.column}"))
  block (s!"func (h *{e.names.entity}Handler) Register(group " ++ framework.groupType ++ ")") [
    s!"routes := group.Group(\"/{e.names.route}\")",
    "routes.GET(\"\", h.List)",
    "routes.POST(\"\", h.Create)",
    when (!e.keyFields.isEmpty) [
      s!"routes.GET({item}, h.Get)",
      s!"routes.PUT({item}, h.Update)",
      s!"routes.DELETE({item}, h.Delete)"]]

/-- The handler that lists rows. -/
def listHandler (framework : Framework) (b : Blueprint) (e : Entity) : Code :=
  handlerMethod framework e "List" (
    if b.features.pagination then [
      "params := pagination.Parse(" ++ framework.query "page" ++ ", "
        ++ framework.query "per_page" ++ ")",
      "rows, total, err := h.service.List(" ++ framework.requestContext
        ++ ", params.Offset(), params.PerPage)",
      failed framework,
      framework.reply "http.StatusOK" "pagination.NewPage(rows, total, params)"]
    else [
      "rows, _, err := h.service.List(" ++ framework.requestContext ++ ", 0, 0)",
      failed framework,
      framework.reply "http.StatusOK" "rows"])

/-- The handlers of rows that are addressed by a key. -/
def keyHandlers (framework : Framework) (b : Blueprint) (e : Entity) : List Code :=
  let parse := each e.keyFields (parsePart framework)
  let args := framework.requestContext ++ ", " ++ keyArgs e
  [ "",
    handlerMethod framework e "Get" [
      parse,
      s!"row, err := h.service.Get({args})",
      failed framework,
      framework.reply "http.StatusOK" "row"],
    "",
    handlerMethod framework e "Update" [
      parse,
      s!"var req dto.Update{e.names.entity}Request",
      framework.bind b.features.validation,
      s!"row, err := h.service.Update({args}, req)",
      failed framework,
      framework.reply "http.StatusOK" "row"],
    "",
    handlerMethod framework e "Delete" [
      parse,
      block s!"if err := h.service.Delete({args}); err != nil" framework.failWith,
      framework.noContent] ]

/-- The source of the handlers of an entity. -/
def handlerSource (framework : Framework) (b : Blueprint) (e : Entity) : List Code :=
  let name := e.names.entity
  let handler := s!"{name}Handler"
  let imports :=
    ["net/http", framework.path, package b "dto", package b "service"]
      ++ (if b.features.pagination then [package b "pagination"] else [])
      ++ e.keyFields.flatMap partImports
  sourceOf b "handler" imports [
    block s!"type {handler} struct" [s!"service *service.{name}Service"],
    "",
    block s!"func New{handler}(s *service.{name}Service) *{handler}" [
      s!"return &{handler}\x7bservice: s\x7d"],
    "",
    registerMethod framework e,
    "",
    listHandler framework b e,
    "",
    handlerMethod framework e "Create" [
      s!"var req dto.Create{name}Request",
      framework.bind b.features.validation,
      "row, err := h.service.Create(" ++ framework.requestContext ++ ", req)",
      failed framework,
      framework.reply "http.StatusCreated" "row"],
    when (!e.keyFields.isEmpty) (keyHandlers framework b e)]

/-! ### Router and program

The router puts the handlers of all entities behind one path, and the program serves it.
-/

/-- What the router imports. -/
def routerImports (framework : Framework) (b : Blueprint) : List String :=
  let f := b.features
  let own := [package b "middleware"]
  let limiter :=
    match framework with
    | .gin => own
    | .echo => ["github.com/labstack/echo/v4/middleware"]
  ["net/http", "gorm.io/gorm", framework.path, package b "handler", package b "repository",
    package b "service"]
  ++ (if f.auth then "os" :: own else [])
  ++ (if f.rateLimit then "golang.org/x/time/rate" :: limiter else [])

/-- The name by which the router knows the generated middleware: one package of the framework has
the same. -/
def middlewareName (framework : Framework) (f : Features) : String :=
  if framework == .echo && f.auth && f.rateLimit then "auth" else "middleware"

/-- The statements that make the group of all routes. -/
def openGroup (f : Features) : Framework → List Code
  | .gin => [
    "r := gin.Default()",
    block "r.GET(\"/health\", func(c *gin.Context)" [
      "c.JSON(http.StatusOK, gin.H\x7b\"status\": \"ok\"\x7d)"] ")",
    "",
    "api := r.Group(\"/api\")",
    when f.rateLimit ["api.Use(middleware.RateLimit(rate.Limit(10), 20))"]]
  | .echo => [
    "e := echo.New()",
    when f.validation ["e.Validator = handler.NewValidator()"],
    block "e.GET(\"/health\", func(c echo.Context) error" [
      "return c.JSON(http.StatusOK, map[string]string\x7b\"status\": \"ok\"\x7d)"] ")",
    "",
    "api := e.Group(\"/api\")",
    when f.rateLimit [
      "api.Use(middleware.RateLimiter("
        ++ "middleware.NewRateLimiterMemoryStore(rate.Limit(10))))"]]

/-- The source of the router. -/
def routerSource (framework : Framework) (b : Blueprint) : List Code :=
  let f := b.features
  let middleware := middlewareName framework f
  let spec (path : String) : String :=
    if middleware == "auth" && path == package b "middleware" then "auth " ++ quoted path
    else quoted path
  let (engine, type) :=
    match framework with
    | .gin => ("r", "*gin.Engine")
    | .echo => ("e", "*echo.Echo")
  source "router" ((grouped b (routerImports framework b)).map fun group => group.map spec) [
    block s!"func New(db *gorm.DB) {type}" [
      all (openGroup f framework),
      when f.auth [s!"api.Use({middleware}.Auth(os.Getenv(\"JWT_SECRET\")))"],
      "",
      each b.entities fun e =>
        let name := e.names.entity
        [ s!"handler.New{name}Handler(service.New{name}Service("
            ++ s!"repository.New{name}Repository(db))).Register(api)" ],
      s!"return {engine}"]]

/-- The source of the program. -/
def mainSource (framework : Framework) (b : Blueprint) : List Code :=
  let serve :=
    match framework with
    | .gin => "Run"
    | .echo => "Start"
  sourceOf b "main" ["log", "os", package b "database", package b "router"] [
    block "func main()" [
      "db, err := database.Open(os.Getenv(\"DATABASE_URL\"))",
      block "if err != nil" ["log.Fatal(err)"],
      s!"log.Fatal(router.New(db).{serve}(\":8080\"))"]]

end CrudGen.Go
