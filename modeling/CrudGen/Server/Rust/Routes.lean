import CrudGen.Server.Rust.Basic

/-!
# Routes in Rust

The handlers of an entity and the paths that lead to them, for both frameworks.
-/

namespace CrudGen.Rust

open Code

/-- The imports that the routes of both frameworks need. -/
def routeImports (b : Blueprint) (e : Entity) : Code :=
  all [
    inputImport e,
    "use crate::error::ApiError;",
    rowImport e,
    when b.features.pagination ["use crate::pagination::\x7bPage, PageParams\x7d;"],
    "use crate::state::AppState;",
    when b.features.validation ["use validator::Validate;"]]

/-- Checks an input. -/
def validated (b : Blueprint) : Code :=
  when b.features.validation ["input.validate()?;"]

namespace Axum

/-- A handler: its parameters stand on lines of their own. -/
def handler (name : String) (params : List String) (returns : String) (body : List Code) : Code :=
  all [
    s!"async fn {name}(",
    each ("State(state): State<AppState>" :: params) fun p => [s!"    {p},"],
    block s!") -> Result<{returns}, ApiError>" body]

/-- The paths of an entity. -/
def router (e : Entity) (key : Key) : Code :=
  let base := s!"/{e.names.route}"
  let item := String.join (key.fields.map fun f => s!"/:{f.name}")
  let update := if isUpdatable e then ".put(update)" else ""
  block "pub fn router() -> Router<AppState>" [
    "Router::new()",
    s!"    .route(\"{base}\", get(list).post(create))",
    when key.exists? [
      s!"    .route(\"{base}{item}\", get(find){update}.delete(remove))"]]

/-- The handler that lists rows. -/
def listHandler (b : Blueprint) (e : Entity) : Code :=
  let name := e.names.entity
  let service := e.names.collection
  if b.features.pagination then
    handler "list" ["Query(params): Query<PageParams>"] s!"Json<Page<{name}>>" [
      s!"Ok(Json(state.{service}.list(params).await?))"]
  else
    block (s!"async fn list(State(state): State<AppState>)"
        ++ s!" -> Result<Json<Vec<{name}>>, ApiError>") [
      s!"Ok(Json(state.{service}.list().await?))"]

/-- The handlers of rows that are addressed by a key. -/
def keyHandlers (b : Blueprint) (e : Entity) (key : Key) : List Code :=
  let name := e.names.entity
  let service := e.names.collection
  let path := s!"Path({key.tuplePattern}): Path<{key.tupleType}>"
  [ "",
    handler "find" [path] s!"Json<{name}>" [
      s!"Ok(Json(state.{service}.get({key.args}).await?))"],
    when (isUpdatable e) [
      "",
      handler "update" [path, s!"Json(input): Json<Update{name}>"] s!"Json<{name}>" [
        validated b,
        s!"Ok(Json(state.{service}.update({key.args}, input).await?))"]],
    "",
    handler "remove" [path] "StatusCode" [
      s!"state.{service}.delete({key.args}).await?;",
      "Ok(StatusCode::NO_CONTENT)"] ]

/-- The module of the routes of an entity. -/
def routeModule (b : Blueprint) (e : Entity) : List Code :=
  let name := e.names.entity
  let key := Key.ofEntity e
  [ "use axum::extract::\x7bPath, Query, State\x7d;",
    "use axum::http::StatusCode;",
    "use axum::routing::get;",
    "use axum::\x7bJson, Router\x7d;",
    "",
    routeImports b e,
    "",
    router e key,
    "",
    listHandler b e,
    "",
    handler "create" [s!"Json(input): Json<Create{name}>"] s!"(StatusCode, Json<{name}>)" [
      validated b,
      s!"Ok((StatusCode::CREATED, Json(state.{e.names.collection}.create(input).await?)))"],
    when key.exists? (keyHandlers b e key) ]

end Axum

namespace Actix

/-- A handler: its parameters stand on lines of their own. -/
def handler (name : String) (params : List String) (returns : String) (body : List Code) : Code :=
  all [
    s!"async fn {name}(",
    each ("state: web::Data<AppState>" :: params) fun p => [s!"    {p},"],
    block s!") -> Result<{returns}, ApiError>" body]

/-- The paths of an entity. -/
def configure (e : Entity) (key : Key) : Code :=
  let base := s!"/{e.names.route}"
  let item := String.join (key.fields.map fun f => "/" ++ Text.braced f.name)
  block "pub fn configure(cfg: &mut web::ServiceConfig)" [
    "cfg.service(",
    s!"    web::resource(\"{base}\")",
    "        .route(web::get().to(list))",
    "        .route(web::post().to(create)),",
    ");",
    when key.exists? [
      "cfg.service(",
      s!"    web::resource(\"{base}{item}\")",
      "        .route(web::get().to(find))",
      when (isUpdatable e) ["        .route(web::put().to(update))"],
      "        .route(web::delete().to(remove)),",
      ");"]]

/-- The handler that lists rows. -/
def listHandler (b : Blueprint) (e : Entity) : Code :=
  let name := e.names.entity
  let service := e.names.collection
  if b.features.pagination then
    handler "list" ["params: web::Query<PageParams>"] s!"web::Json<Page<{name}>>" [
      s!"Ok(web::Json(state.{service}.list(params.into_inner()).await?))"]
  else
    block (s!"async fn list(state: web::Data<AppState>)"
        ++ s!" -> Result<web::Json<Vec<{name}>>, ApiError>") [
      s!"Ok(web::Json(state.{service}.list().await?))"]

/-- The handlers of rows that are addressed by a key. -/
def keyHandlers (b : Blueprint) (e : Entity) (key : Key) : List Code :=
  let name := e.names.entity
  let service := e.names.collection
  let path := s!"path: web::Path<{key.tupleType}>"
  let unpack := s!"let {key.tuplePattern} = path.into_inner();"
  [ "",
    handler "find" [path] s!"web::Json<{name}>" [
      unpack,
      s!"Ok(web::Json(state.{service}.get({key.args}).await?))"],
    when (isUpdatable e) [
      "",
      handler "update" [path, s!"input: web::Json<Update{name}>"] s!"web::Json<{name}>" [
        unpack,
        "let input = input.into_inner();",
        validated b,
        s!"Ok(web::Json(state.{service}.update({key.args}, input).await?))"]],
    "",
    handler "remove" [path] "HttpResponse" [
      unpack,
      s!"state.{service}.delete({key.args}).await?;",
      "Ok(HttpResponse::NoContent().finish())"] ]

/-- The module of the routes of an entity. -/
def routeModule (b : Blueprint) (e : Entity) : List Code :=
  let name := e.names.entity
  let key := Key.ofEntity e
  [ "use actix_web::\x7bHttpResponse, web\x7d;",
    "",
    routeImports b e,
    "",
    configure e key,
    "",
    listHandler b e,
    "",
    handler "create" [s!"input: web::Json<Create{name}>"] "HttpResponse" [
      "let input = input.into_inner();",
      validated b,
      s!"let created = state.{e.names.collection}.create(input).await?;",
      "Ok(HttpResponse::Created().json(created))"],
    when key.exists? (keyHandlers b e key) ]

end Actix

end CrudGen.Rust
