import CrudGen.Target.Profile

/-!
# Built-in profiles

The nine targets that need no configuration.
-/

namespace CrudGen.BuiltIn

/-- How Rust spells types and names. -/
def rust : Conventions where
  extension := "rs"
  types := [
    ("bigint", "i64"), ("binary", "Vec<u8>"), ("boolean", "bool"), ("char", "String"),
    ("date", "chrono::NaiveDate"), ("decimal", "rust_decimal::Decimal"), ("double", "f64"),
    ("enum", "String"), ("integer", "i32"), ("json", "serde_json::Value"), ("real", "f32"),
    ("smallint", "i16"), ("text", "String"), ("time", "chrono::NaiveTime"),
    ("timestamp", "chrono::NaiveDateTime"), ("timestamptz", "chrono::DateTime<chrono::Utc>"),
    ("uuid", "uuid::Uuid"), ("varchar", "String")]
  unsupported := ["interval"]
  fallback := "String"
  array := "Vec<\x7b\x7d>"
  decimal := .fixed
  nullable := .template "Option<\x7b\x7d>"
  naming := [
    (.entity, .pascal), (.field, .snake), (.route, .kebab), (.file, .snake), (.table, .preserve),
    (.constant, .screamingSnake)]
  plural := [.route]

/-- How TypeScript spells types and names. -/
def typescript : Conventions where
  extension := "ts"
  types := [
    ("bigint", "number"), ("binary", "Buffer"), ("boolean", "boolean"), ("char", "string"),
    ("date", "string"), ("decimal", "string"), ("double", "number"), ("enum", "string"),
    ("integer", "number"), ("interval", "string"), ("json", "unknown"), ("real", "number"),
    ("smallint", "number"), ("text", "string"), ("time", "string"), ("timestamp", "Date"),
    ("timestamptz", "Date"), ("uuid", "string"), ("varchar", "string")]
  fallback := "string"
  array := "\x7b\x7d[]"
  decimal := .string
  nullable := .template "\x7b\x7d | null"
  naming := [
    (.entity, .pascal), (.field, .camel), (.route, .kebab), (.file, .kebab), (.table, .preserve),
    (.constant, .screamingSnake)]
  plural := [.route]

/-- How Python spells types and names. -/
def python : Conventions where
  extension := "py"
  types := [
    ("bigint", "int"), ("binary", "bytes"), ("boolean", "bool"), ("char", "str"),
    ("date", "datetime.date"), ("decimal", "decimal.Decimal"), ("double", "float"), ("enum", "str"),
    ("integer", "int"), ("interval", "datetime.timedelta"), ("json", "dict"), ("real", "float"),
    ("smallint", "int"), ("text", "str"), ("time", "datetime.time"),
    ("timestamp", "datetime.datetime"), ("timestamptz", "datetime.datetime"), ("uuid", "uuid.UUID"),
    ("varchar", "str")]
  fallback := "str"
  array := "list[\x7b\x7d]"
  decimal := .fixed
  nullable := .template "Optional[\x7b\x7d]"
  naming := [
    (.entity, .pascal), (.field, .snake), (.route, .kebab), (.file, .snake), (.table, .preserve),
    (.constant, .screamingSnake)]
  plural := [.route]
  imports := [
    ("datetime", "datetime"), ("decimal", "decimal"), ("uuid", "uuid")]

/-- How Go spells types and names. -/
def go : Conventions where
  extension := "go"
  types := [
    ("bigint", "int64"), ("binary", "[]byte"), ("boolean", "bool"), ("char", "string"),
    ("date", "time.Time"), ("decimal", "decimal.Decimal"), ("double", "float64"),
    ("enum", "string"), ("integer", "int32"), ("json", "json.RawMessage"), ("real", "float32"),
    ("smallint", "int16"), ("text", "string"), ("time", "string"), ("timestamp", "time.Time"),
    ("timestamptz", "time.Time"), ("uuid", "uuid.UUID"), ("varchar", "string")]
  unsupported := ["interval"]
  fallback := "string"
  array := "[]\x7b\x7d"
  decimal := .fixed
  nullable := .template "*\x7b\x7d"
  naming := [
    (.entity, .pascal), (.field, .pascal), (.route, .kebab), (.file, .snake), (.table, .preserve),
    (.constant, .pascal)]
  plural := [.route]
  imports := [
    ("decimal", "github.com/shopspring/decimal"), ("json", "encoding/json"), ("time", "time"),
    ("uuid", "github.com/google/uuid")]

/-- How Java spells types and names. -/
def java : Conventions where
  extension := "java"
  types := [
    ("bigint", "long"), ("binary", "byte[]"), ("boolean", "boolean"), ("char", "String"),
    ("date", "LocalDate"), ("decimal", "BigDecimal"), ("double", "double"), ("enum", "String"),
    ("integer", "int"), ("interval", "Duration"), ("json", "String"), ("real", "float"),
    ("smallint", "short"), ("text", "String"), ("time", "LocalTime"),
    ("timestamp", "LocalDateTime"), ("timestamptz", "OffsetDateTime"), ("uuid", "UUID"),
    ("varchar", "String")]
  fallback := "String"
  array := "\x7b\x7d[]"
  decimal := .fixed
  nullable := .boxed [
    ("boolean", "Boolean"), ("double", "Double"), ("float", "Float"), ("int", "Integer"),
    ("long", "Long"), ("short", "Short")]
  naming := [
    (.entity, .pascal), (.field, .camel), (.route, .kebab), (.file, .pascal), (.table, .preserve),
    (.constant, .screamingSnake)]
  plural := [.route]
  imports := [
    ("BigDecimal", "java.math.BigDecimal"), ("Duration", "java.time.Duration"),
    ("LocalDate", "java.time.LocalDate"), ("LocalDateTime", "java.time.LocalDateTime"),
    ("LocalTime", "java.time.LocalTime"), ("OffsetDateTime", "java.time.OffsetDateTime"),
    ("UUID", "java.util.UUID")]

/-- Rust with Axum. -/
def axum : Profile where
  toConventions := rust
  key := ⟨"rust", "axum"⟩
  features := ["auth", "caching", "pagination", "rate_limit", "soft_delete", "validation"]
  dependencies := [
    ("axum", "0.7"), ("chrono", "0.4"), ("jsonwebtoken", "9"), ("rust_decimal", "1"),
    ("serde", "1"), ("serde_json", "1"), ("sqlx", "0.8"), ("tokio", "1"), ("tower_governor", "0.4"),
    ("uuid", "1"), ("validator", "0.18")]

/-- Rust with Actix. -/
def actix : Profile where
  toConventions := rust
  key := ⟨"rust", "actix"⟩
  features := ["auth", "caching", "pagination", "soft_delete", "validation"]
  dependencies := [
    ("actix-web", "4"), ("chrono", "0.4"), ("jsonwebtoken", "9"), ("rust_decimal", "1"),
    ("serde", "1"), ("serde_json", "1"), ("sqlx", "0.8"), ("uuid", "1"), ("validator", "0.18")]

/-- TypeScript with Express. -/
def express : Profile where
  toConventions := typescript
  key := ⟨"typescript", "express"⟩
  features := ["auth", "pagination", "rate_limit", "soft_delete", "validation"]
  dependencies := [
    ("express", "^4.19.2"), ("express-rate-limit", "^7.2.0"), ("jsonwebtoken", "^9.0.2"),
    ("pg", "^8.11.5"), ("zod", "^3.23.8")]

/-- TypeScript with NestJS. -/
def nestjs : Profile where
  toConventions := typescript
  key := ⟨"typescript", "nestjs"⟩
  features := ["auth", "caching", "pagination", "rate_limit", "soft_delete", "validation"]
  dependencies := [
    ("@nestjs/cache-manager", "^2.2.2"), ("@nestjs/common", "^10.3.8"), ("@nestjs/core", "^10.3.8"),
    ("@nestjs/throttler", "^5.1.2"), ("@nestjs/typeorm", "^10.0.2"), ("class-validator", "^0.14.1"),
    ("typeorm", "^0.3.20")]

/-- Python with FastAPI. -/
def fastapi : Profile where
  toConventions := python
  key := ⟨"python", "fastapi"⟩
  features := ["auth", "caching", "pagination", "rate_limit", "soft_delete", "validation"]
  dependencies := [
    ("fastapi", "0.111.0"), ("pydantic", "2.7.1"), ("pyjwt", "2.8.0"), ("slowapi", "0.1.9"),
    ("sqlalchemy", "2.0.30"), ("uvicorn", "0.29.0")]

/-- Python with Flask. -/
def flask : Profile where
  toConventions := python
  key := ⟨"python", "flask"⟩
  features := ["auth", "pagination", "rate_limit", "soft_delete", "validation"]
  dependencies := [
    ("flask", "3.0.3"), ("flask-limiter", "3.7.0"), ("flask-sqlalchemy", "3.1.1"),
    ("marshmallow", "3.21.2"), ("pyjwt", "2.8.0")]

/-- Go with Gin. -/
def gin : Profile where
  toConventions := go
  key := ⟨"go", "gin"⟩
  features := ["auth", "caching", "pagination", "rate_limit", "soft_delete", "validation"]
  dependencies := [
    ("github.com/gin-gonic/gin", "v1.10.0"), ("github.com/golang-jwt/jwt/v5", "v5.2.1"),
    ("github.com/google/uuid", "v1.6.0"), ("github.com/shopspring/decimal", "v1.4.0"),
    ("golang.org/x/time", "v0.5.0"), ("gorm.io/driver/postgres", "v1.5.7"),
    ("gorm.io/gorm", "v1.25.10")]

/-- Go with Echo. -/
def echo : Profile where
  toConventions := go
  key := ⟨"go", "echo"⟩
  features := ["auth", "pagination", "rate_limit", "soft_delete", "validation"]
  dependencies := [
    ("github.com/go-playground/validator/v10", "v10.20.0"),
    ("github.com/golang-jwt/jwt/v5", "v5.2.1"), ("github.com/google/uuid", "v1.6.0"),
    ("github.com/labstack/echo/v4", "v4.12.0"), ("github.com/shopspring/decimal", "v1.4.0"),
    ("golang.org/x/time", "v0.5.0"), ("gorm.io/driver/postgres", "v1.5.7"),
    ("gorm.io/gorm", "v1.25.10")]

/-- Java with Spring. -/
def spring : Profile where
  toConventions := java
  key := ⟨"java", "spring"⟩
  features := ["auth", "caching", "pagination", "rate_limit", "soft_delete", "validation"]
  dependencies := [
    ("bucket4j-core", "8.10.1"), ("postgresql", "42.7.3"), ("spring-boot", "3.3.0"),
    ("spring-boot-starter-cache", "3.3.0"), ("spring-boot-starter-data-jpa", "3.3.0"),
    ("spring-boot-starter-oauth2-resource-server", "3.3.0"),
    ("spring-boot-starter-security", "3.3.0"), ("spring-boot-starter-validation", "3.3.0"),
    ("spring-boot-starter-web", "3.3.0")]

end CrudGen.BuiltIn

namespace CrudGen

open BuiltIn in
/-- The profiles of the built-in targets. -/
def ProfileSet.builtIn : ProfileSet :=
  .ofProfiles [axum, actix, express, nestjs, fastapi, flask, gin, echo, spring]

end CrudGen
