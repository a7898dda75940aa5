import CrudGen.Server.Rust.Basic

/-!
# Shared modules in Rust

The modules that all entities of a server share. Some are the same in every server with the feature
they serve, the others tie its entities together.
-/

namespace CrudGen.Rust

/-! ### Fixed modules

Modules that are the same in every server with the feature they serve.
-/

/-- The parameters of a page and a page of rows. -/
def paginationModule : List Code := [
  "use serde::\x7bDeserialize, Serialize\x7d;",
  "",
  "const MAX_PER_PAGE: i64 = 100;",
  "",
  "#[derive(Debug, Clone, Deserialize)]",
  block "pub struct PageParams" [
    "#[serde(default = \"first_page\")]",
    "pub page: i64,",
    "#[serde(default = \"default_per_page\")]",
    "pub per_page: i64,"],
  "",
  block "fn first_page() -> i64" ["1"],
  "",
  block "fn default_per_page() -> i64" ["20"],
  "",
  block "impl PageParams" [
    block "pub fn limit(&self) -> i64" ["self.per_page.clamp(1, MAX_PER_PAGE)"],
    "",
    block "pub fn offset(&self) -> i64" ["(self.page.max(1) - 1) * self.limit()"]],
  "",
  "#[derive(Debug, Serialize)]",
  block "pub struct Page<T>" [
    "pub items: Vec<T>,",
    "pub total: i64,",
    "pub page: i64,",
    "pub per_page: i64,"],
  "",
  block "impl<T> Page<T>" [
    block "pub fn new(items: Vec<T>, total: i64, params: &PageParams) -> Self" [
      block "Self" [
        "items,",
        "total,",
        "page: params.page.max(1),",
        "per_page: params.limit(),"]]]]

/-- A cache of single rows that are forgotten after a minute. -/
def cacheModule : List Code := [
  "use std::collections::HashMap;",
  "use std::sync::\x7bArc, RwLock\x7d;",
  "use std::time::\x7bDuration, Instant\x7d;",
  "",
  "const TTL: Duration = Duration::from_secs(60);",
  "",
  "/// Read-through cache for single rows.",
  block "pub struct Cache<T>" ["entries: Arc<RwLock<HashMap<String, (Instant, T)>>>,"],
  "",
  block "impl<T> Clone for Cache<T>" [
    block "fn clone(&self) -> Self" [block "Self" ["entries: Arc::clone(&self.entries),"]]],
  "",
  block "impl<T> Default for Cache<T>" [
    block "fn default() -> Self" [
      block "Self" ["entries: Arc::new(RwLock::new(HashMap::new())),"]]],
  "",
  block "impl<T: Clone> Cache<T>" [
    block "pub fn get(&self, key: &str) -> Option<T>" [
      "let entries = self.entries.read().ok()?;",
      "let (stored, value) = entries.get(key)?;",
      "(stored.elapsed() < TTL).then(|| value.clone())"],
    "",
    block "pub fn put(&self, key: String, value: T)" [
      block "if let Ok(mut entries) = self.entries.write()" [
        "entries.insert(key, (Instant::now(), value));"]],
    "",
    block "pub fn evict(&self, key: &str)" [
      block "if let Ok(mut entries) = self.entries.write()" ["entries.remove(key);"]]]]

/-- Demands a signed token of every request, for Axum. -/
def axumAuthModule : List Code := [
  "use axum::extract::Request;",
  "use axum::middleware::Next;",
  "use axum::response::Response;",
  "use jsonwebtoken::\x7bDecodingKey, Validation, decode\x7d;",
  "use serde::Deserialize;",
  "",
  "use crate::error::ApiError;",
  "",
  "#[derive(Debug, Clone, Deserialize)]",
  block "pub struct Claims" [
    "pub sub: String,",
    "pub exp: usize,"],
  "",
  block ("pub async fn require_auth(mut request: Request, next: Next)"
      ++ " -> Result<Response, ApiError>") [
    "let token = request",
    "    .headers()",
    "    .get(\"authorization\")",
    "    .and_then(|v| v.to_str().ok())",
    "    .and_then(|v| v.strip_prefix(\"Bearer \"))",
    "    .ok_or(ApiError::Unauthorized)?;",
    "let secret = std::env::var(\"JWT_SECRET\").map_err(|_| ApiError::Unauthorized)?;",
    "let data = decode::<Claims>(",
    "    token,",
    "    &DecodingKey::from_secret(secret.as_bytes()),",
    "    &Validation::default(),",
    ")",
    ".map_err(|_| ApiError::Unauthorized)?;",
    "request.extensions_mut().insert(data.claims);",
    "Ok(next.run(request).await)"]]

/-- Demands a signed token of every request, for Actix. -/
def actixAuthModule : List Code := [
  "use actix_web::body::MessageBody;",
  "use actix_web::dev::\x7bServiceRequest, ServiceResponse\x7d;",
  "use actix_web::middleware::Next;",
  "use actix_web::\x7bError, HttpMessage\x7d;",
  "use jsonwebtoken::\x7bDecodingKey, Validation, decode\x7d;",
  "use serde::Deserialize;",
  "",
  "use crate::error::ApiError;",
  "",
  "#[derive(Debug, Clone, Deserialize)]",
  block "pub struct Claims" [
    "pub sub: String,",
    "pub exp: usize,"],
  "",
  "pub async fn require_auth(",
  "    request: ServiceRequest,",
  "    next: Next<impl MessageBody>,",
  block ") -> Result<ServiceResponse<impl MessageBody>, Error>" [
    "let token = request",
    "    .headers()",
    "    .get(\"authorization\")",
    "    .and_then(|v| v.to_str().ok())",
    "    .and_then(|v| v.strip_prefix(\"Bearer \"))",
    "    .ok_or(ApiError::Unauthorized)?",
    "    .to_string();",
    "let secret = std::env::var(\"JWT_SECRET\").map_err(|_| ApiError::Unauthorized)?;",
    "let data = decode::<Claims>(",
    "    &token,",
    "    &DecodingKey::from_secret(secret.as_bytes()),",
    "    &Validation::default(),",
    ")",
    ".map_err(|_| ApiError::Unauthorized)?;",
    "request.extensions_mut().insert(data.claims);",
    "next.call(request).await"]]

/-- Limits how often a client may ask. -/
def rateLimitModule : List Code := [
  "use std::sync::Arc;",
  "",
  "use governor::middleware::NoOpMiddleware;",
  "use tower_governor::GovernorLayer;",
  "use tower_governor::governor::GovernorConfigBuilder;",
  "use tower_governor::key_extractor::PeerIpKeyExtractor;",
  "",
  "/// Two requests per second per client, bursts of up to fifty.",
  block "pub fn layer() -> GovernorLayer<PeerIpKeyExtractor, NoOpMiddleware>" [
    "let config = GovernorConfigBuilder::default()",
    "    .per_second(2)",
    "    .burst_size(50)",
    "    .finish()",
    "    .expect(\"valid rate limit configuration\");",
    block "GovernorLayer" ["config: Arc::new(config),"]]]

open Code

/-! ### Modules of a server

The modules that tie the entities of a server together: its state, its errors, its routes and its
entry point.
-/

/-- Declares the module of every entity. -/
def moduleIndex (b : Blueprint) : Code :=
  each b.entities fun e => [s!"pub mod {e.names.file};"]

/-- The routes of all entities, for Axum. -/
def axumRouter (b : Blueprint) : Code :=
  all [
    "use axum::Router;",
    when b.features.auth ["use axum::middleware;"],
    "",
    "use crate::state::AppState;",
    "",
    block "pub fn router(state: AppState) -> Router" [
      "let api = Router::new()",
      each b.entities fun e => [s!"    .merge({e.names.file}::router())"],
      when b.features.auth ["    .layer(middleware::from_fn(crate::auth::require_auth))"],
      when b.features.rateLimit ["    .layer(crate::rate_limit::layer())"],
      "    .route(\"/health\", axum::routing::get(|| async \x7b \"ok\" \x7d));",
      "Router::new().nest(\"/api\", api).with_state(state)"]]

/-- The routes of all entities, for Actix. -/
def actixRouter (b : Blueprint) : Code :=
  all [
    "use actix_web::web;",
    "",
    block "pub fn configure(cfg: &mut web::ServiceConfig)" [
      each b.entities fun e => [s!"{e.names.file}::configure(cfg);"]]]

/-- The index of the routes. -/
def routeIndex (framework : Framework) (b : Blueprint) : List Code := [
  moduleIndex b,
  "",
  match framework with
  | .axum => axumRouter b
  | .actix => actixRouter b]

/-- The module of the services that handlers share. -/
def stateModule (b : Blueprint) : List Code := [
  each b.entities fun e => [s!"use crate::services::{e.names.file}::{e.names.entity}Service;"],
  "use sqlx::PgPool;",
  "",
  "#[derive(Clone)]",
  block "pub struct AppState" [
    each b.entities fun e => [
      "pub " ++ ident e.names.collection ++ s!": {e.names.entity}Service,"]],
  "",
  block "impl AppState" [
    block "pub fn new(pool: PgPool) -> Self" [
      block "Self" [
        each b.entities fun e => [
          ident e.names.collection ++ s!": {e.names.entity}Service::new(pool.clone()),"]]]]]

/-- The imports of the errors. -/
def errorImports : Framework → List Code
  | .axum => [
    "use axum::Json;",
    "use axum::http::StatusCode;",
    "use axum::response::\x7bIntoResponse, Response\x7d;"]
  | .actix => [
    "use actix_web::http::StatusCode;",
    "use actix_web::\x7bHttpResponse, ResponseError\x7d;"]

/-- How an error becomes an answer. -/
def errorResponse : Framework → Code
  | .axum =>
    block "impl IntoResponse for ApiError" [
      block "fn into_response(self) -> Response" [
        "(self.status(), Json(json!(\x7b \"error\": self.to_string() \x7d))).into_response()"]]
  | .actix =>
    block "impl ResponseError for ApiError" [
      block "fn status_code(&self) -> StatusCode" ["self.status()"],
      "",
      block "fn error_response(&self) -> HttpResponse" [
        "HttpResponse::build(self.status()).json(json!(\x7b \"error\": self.to_string() \x7d))"]]

/-- The module of the errors. -/
def errorModule (framework : Framework) (b : Blueprint) : List Code :=
  let validation := b.features.validation
  [ all (errorImports framework),
    "use serde_json::json;",
    "",
    "#[derive(Debug)]",
    block "pub enum ApiError" [
      "NotFound,",
      "Unauthorized,",
      when validation ["Invalid(validator::ValidationErrors),"],
      "Database(sqlx::Error),"],
    "",
    block "impl ApiError" [
      block "fn status(&self) -> StatusCode" [
        block "match self" [
          "Self::NotFound => StatusCode::NOT_FOUND,",
          "Self::Unauthorized => StatusCode::UNAUTHORIZED,",
          when validation ["Self::Invalid(_) => StatusCode::UNPROCESSABLE_ENTITY,"],
          "Self::Database(_) => StatusCode::INTERNAL_SERVER_ERROR,"]]],
    "",
    block "impl std::fmt::Display for ApiError" [
      block "fn fmt(&self, f: &mut std::fmt::Formatter<'_>) -> std::fmt::Result" [
        block "match self" [
          "Self::NotFound => f.write_str(\"not found\"),",
          "Self::Unauthorized => f.write_str(\"unauthorized\"),",
          when validation ["Self::Invalid(e) => write!(f, \"\x7b\x7d\", e),"],
          "Self::Database(_) => f.write_str(\"database error\"),"]]],
    "",
    block "impl From<sqlx::Error> for ApiError" [
      block "fn from(e: sqlx::Error) -> Self" ["Self::Database(e)"]],
    when validation [
      "",
      block "impl From<validator::ValidationErrors> for ApiError" [
        block "fn from(e: validator::ValidationErrors) -> Self" ["Self::Invalid(e)"]]],
    "",
    errorResponse framework ]

/-- The modules of a server in order. -/
def moduleNames (f : Features) : List String :=
  (if f.auth then ["auth"] else []) ++ (if f.caching then ["cache"] else [])
    ++ ["dto", "error", "models"] ++ (if f.pagination then ["pagination"] else [])
    ++ (if f.rateLimit then ["rate_limit"] else [])
    ++ ["repositories", "routes", "services", "state"]

/-- Starts a server with Axum. -/
def axumServe (b : Blueprint) : Code :=
  all [
    "let listener = tokio::net::TcpListener::bind(&addr).await?;",
    either b.features.rateLimit [
      "let app = routes::router(state)",
      "    .into_make_service_with_connect_info::<std::net::SocketAddr>();",
      "axum::serve(listener, app).await?;"] [
      "axum::serve(listener, routes::router(state)).await?;"]]

/-- Starts a server with Actix. -/
def actixServe (b : Blueprint) : Code :=
  let guard :=
    if b.features.auth then ".wrap(actix_web::middleware::from_fn(auth::require_auth))" else ""
  all [
    block "HttpServer::new(move ||" [
      "App::new()",
      "    .app_data(web::Data::new(state.clone()))",
      s!"    .service(web::scope(\"/api\"){guard}.configure(routes::configure))"] ")",
    ".bind(&addr)?",
    ".run()",
    ".await?;"]

/-- The entry point. -/
def mainModule (framework : Framework) (b : Blueprint) : List Code := [
  s!"//! {b.project} API server.",
  "",
  each (moduleNames b.features) fun m => [s!"mod {m};"],
  "",
  "use sqlx::postgres::PgPoolOptions;",
  "use state::AppState;",
  "",
  match framework with
  | .axum => "#[tokio::main]"
  | .actix => all [
    "use actix_web::\x7bApp, HttpServer, web\x7d;",
    "",
    "#[actix_web::main]"],
  block "async fn main() -> Result<(), Box<dyn std::error::Error>>" [
    "let url = std::env::var(\"DATABASE_URL\")?;",
    "let pool = PgPoolOptions::new().max_connections(10).connect(&url).await?;",
    "let state = AppState::new(pool);",
    "let addr = std::env::var(\"BIND_ADDR\")"
      ++ ".unwrap_or_else(|_| \"0.0.0.0:8080\".to_string());",
    match framework with
    | .axum => axumServe b
    | .actix => actixServe b,
    "Ok(())"]]

end CrudGen.Rust
