import CrudGen.Server.Go.Handler

/-!
# Files of a Go server

The files that all entities share and that hardly depend on them.
-/

namespace CrudGen.Go

open Code

/-- The source of the database connections. -/
def databaseSource : List Code :=
  source "database" [["gorm.io/driver/postgres", "gorm.io/gorm"].map quoted] [
    block "func Open(dsn string) (*gorm.DB, error)" [
      "return gorm.Open(postgres.Open(dsn), &gorm.Config\x7b\x7d)"]]

/-- The source of the errors of services. -/
def serviceErrorSource : List Code :=
  source "service" [] [
    "import \"errors\"",
    "",
    "var ErrNotFound = errors.New(\"not found\")"]

/-- How errors of services are answered. -/
def answerErrors : Framework → Code
  | .gin => block "func respondError(c *gin.Context, err error)" [
    block "if errors.Is(err, service.ErrNotFound)" [
      "c.JSON(http.StatusNotFound, gin.H\x7b\"error\": err.Error()\x7d)",
      "return"],
    "c.JSON(http.StatusInternalServerError, gin.H\x7b\"error\": \"internal error\"\x7d)"]
  | .echo => block "func toHTTPError(err error) error" [
    block "if errors.Is(err, service.ErrNotFound)" [
      "return echo.NewHTTPError(http.StatusNotFound, err.Error())"],
    "return err"]

/-- The source that answers errors of services. -/
def handlerErrorSource (framework : Framework) (b : Blueprint) : List Code :=
  let imports := [["errors", "net/http"], [framework.path], [package b "service"]]
  source "handler" (imports.map fun group => group.map quoted) [answerErrors framework]

/-- The source of the checks of inputs. -/
def validatorSource : List Code :=
  source "handler" [] [
    "import \"github.com/go-playground/validator/v10\"",
    "",
    block "type Validator struct" ["validate *validator.Validate"],
    "",
    block "func NewValidator() *Validator" ["return &Validator\x7bvalidate: validator.New()\x7d"],
    "",
    block "func (v *Validator) Validate(i any) error" ["return v.validate.Struct(i)"]]

/-- The source of pages. -/
def paginationSource : List Code :=
  source "pagination" [] [
    "import \"strconv\"",
    "",
    "const maxPerPage = 100",
    "",
    block "type Params struct" [
      "Page    int",
      "PerPage int"],
    "",
    block "func Parse(page, perPage string) Params" [
      "p := Params\x7bPage: 1, PerPage: 20\x7d",
      block "if n, err := strconv.Atoi(page); err == nil && n > 0" ["p.Page = n"],
      block "if n, err := strconv.Atoi(perPage); err == nil && n > 0" [
        "p.PerPage = min(n, maxPerPage)"],
      "return p"],
    "",
    block "func (p Params) Offset() int" ["return (p.Page - 1) * p.PerPage"],
    "",
    block "type Page[T any] struct" [
      "Items   []T   `json:\"items\"`",
      "Total   int64 `json:\"total\"`",
      "Page    int   `json:\"page\"`",
      "PerPage int   `json:\"per_page\"`"],
    "",
    block "func NewPage[T any](items []T, total int64, p Params) Page[T]" [
      "return Page[T]\x7bItems: items, Total: total, Page: p.Page, PerPage: p.PerPage\x7d"]]

/-- Reads the token of a request. -/
def parseToken : Code :=
  block "token, err := jwt.Parse(raw, func(*jwt.Token) (any, error)" [
    "return []byte(secret), nil"] ", jwt.WithValidMethods([]string\x7b\"HS256\"\x7d))"

/-- The function that turns away requests without a valid token. -/
def authFunction : Framework → Code
  | .gin =>
    let reject : List Code := [
      "c.AbortWithStatusJSON(http.StatusUnauthorized, gin.H\x7b\"error\": \"unauthorized\"\x7d)",
      "return"]
    block "func Auth(secret string) gin.HandlerFunc" [
      block "return func(c *gin.Context)" [
        "raw, ok := strings.CutPrefix(c.GetHeader(\"Authorization\"), \"Bearer \")",
        block "if !ok" reject,
        parseToken,
        block "if err != nil || !token.Valid" reject,
        "c.Set(\"claims\", token.Claims)",
        "c.Next()"]]
  | .echo =>
    let reject : List Code := [
      "return echo.NewHTTPError(http.StatusUnauthorized, \"unauthorized\")"]
    block "func Auth(secret string) echo.MiddlewareFunc" [
      block "return func(next echo.HandlerFunc) echo.HandlerFunc" [
        block "return func(c echo.Context) error" [
          "raw, ok := strings.CutPrefix(c.Request().Header.Get(\"Authorization\"), \"Bearer \")",
          block "if !ok" reject,
          parseToken,
          block "if err != nil || !token.Valid" reject,
          "c.Set(\"claims\", token.Claims)",
          "return next(c)"]]]

/-- The source that turns away requests without a valid token. -/
def authSource (framework : Framework) : List Code :=
  let others := ascending [framework.path, "github.com/golang-jwt/jwt/v5"]
  source "middleware" [["net/http", "strings"].map quoted, others.map quoted] [
    authFunction framework]

/-- The source that limits how often requests come. -/
def rateLimitSource : List Code :=
  let imports := [["net/http", "sync"], ["github.com/gin-gonic/gin", "golang.org/x/time/rate"]]
  source "middleware" (imports.map fun group => group.map quoted) [
    "// RateLimit keeps one token bucket per client address.",
    block "func RateLimit(perSecond rate.Limit, burst int) gin.HandlerFunc" [
      "var mu sync.Mutex",
      "limiters := map[string]*rate.Limiter\x7b\x7d",
      block "return func(c *gin.Context)" [
        "mu.Lock()",
        "limiter, ok := limiters[c.ClientIP()]",
        block "if !ok" [
          "limiter = rate.NewLimiter(perSecond, burst)",
          "limiters[c.ClientIP()] = limiter"],
        "mu.Unlock()",
        block "if !limiter.Allow()" [
          "c.AbortWithStatusJSON(http.StatusTooManyRequests, "
            ++ "gin.H\x7b\"error\": \"too many requests\"\x7d)",
          "return"],
        "c.Next()"]]]

/-- The source of the cache. -/
def cacheSource : List Code :=
  let locked (body : List Code) : List Code := "c.mu.Lock()" :: "defer c.mu.Unlock()" :: body
  source "cache" [["sync", "time"].map quoted] [
    block "type entry[T any] struct" [
      "value   T",
      "expires time.Time"],
    "",
    block "type Cache[T any] struct" [
      "mu      sync.Mutex",
      "ttl     time.Duration",
      "entries map[string]entry[T]"],
    "",
    block "func New[T any](ttl time.Duration) *Cache[T]" [
      "return &Cache[T]\x7bttl: ttl, entries: map[string]entry[T]\x7b\x7d\x7d"],
    "",
    block "func (c *Cache[T]) Get(key string) (T, bool)" (locked [
      "e, ok := c.entries[key]",
      block "if !ok || time.Now().After(e.expires)" [
        "var zero T",
        "return zero, false"],
      "return e.value, true"]),
    "",
    block "func (c *Cache[T]) Put(key string, value T)" (locked [
      "c.entries[key] = entry[T]\x7bvalue: value, expires: time.Now().Add(c.ttl)\x7d"]),
    "",
    block "func (c *Cache[T]) Evict(key string)" (locked ["delete(c.entries, key)"])]

end CrudGen.Go
