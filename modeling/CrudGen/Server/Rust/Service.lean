import CrudGen.Server.Rust.Basic

/-!
# Services in Rust

A service stands between the routes and a repository. It counts pages, keeps single rows in a cache
if that is asked for, and reports rows that are not there.
-/

namespace CrudGen.Rust

open Code

/-- Forgets the cached row of a key. -/
def evict (caching : Bool) (key : Key) : Code :=
  when caching [s!"self.cache.evict(&{key.cacheKey});"]

/-- The method that lists rows. -/
def listMethod (b : Blueprint) (name : String) : Code :=
  if b.features.pagination then
    block s!"pub async fn list(&self, params: PageParams) -> Result<Page<{name}>, ApiError>" [
      "let items = self.repository.list(params.limit(), params.offset()).await?;",
      "let total = self.repository.count().await?;",
      "Ok(Page::new(items, total, &params))"]
  else
    block s!"pub async fn list(&self) -> Result<Vec<{name}>, ApiError>" [
      "Ok(self.repository.list().await?)"]

/-- The method that finds a row. -/
def getMethod (caching : Bool) (name : String) (key : Key) : Code :=
  block s!"pub async fn get(&self, {key.params}) -> Result<{name}, ApiError>" [
    when caching [
      s!"let key = {key.cacheKey};",
      block "if let Some(hit) = self.cache.get(&key)" ["return Ok(hit);"]],
    "let row = self",
    "    .repository",
    s!"    .find({key.args})",
    "    .await?",
    "    .ok_or(ApiError::NotFound)?;",
    when caching ["self.cache.put(key, row.clone());"],
    "Ok(row)"]

/-- The method that changes a row. -/
def updateMethod (caching : Bool) (name : String) (key : Key) : Code :=
  block (s!"pub async fn update(&self, {key.params}, input: Update{name})"
      ++ s!" -> Result<{name}, ApiError>") [
    evict caching key,
    "self.repository",
    s!"    .update({key.args}, &input)",
    "    .await?",
    "    .ok_or(ApiError::NotFound)"]

/-- The method that deletes a row. -/
def deleteMethod (caching : Bool) (key : Key) : Code :=
  block s!"pub async fn delete(&self, {key.params}) -> Result<(), ApiError>" [
    evict caching key,
    blocks [
      (s!"if self.repository.delete({key.args}).await?", ["Ok(())"]),
      ("else", ["Err(ApiError::NotFound)"])]]

/-- The module of a service. -/
def serviceModule (b : Blueprint) (e : Entity) : List Code :=
  let name := e.names.entity
  let key := Key.ofEntity e
  let caching := b.features.caching && key.exists?
  [ when caching ["use crate::cache::Cache;"],
    inputImport e,
    "use crate::error::ApiError;",
    rowImport e,
    when b.features.pagination ["use crate::pagination::\x7bPage, PageParams\x7d;"],
    s!"use crate::repositories::{e.names.file}::{name}Repository;",
    "use sqlx::PgPool;",
    "",
    "#[derive(Clone)]",
    block s!"pub struct {name}Service" [
      s!"repository: {name}Repository,",
      when caching [s!"cache: Cache<{name}>,"]],
    "",
    block s!"impl {name}Service" [
      block "pub fn new(pool: PgPool) -> Self" [
        block "Self" [
          s!"repository: {name}Repository::new(pool),",
          when caching ["cache: Cache::default(),"]]],
      "",
      block s!"pub fn repository(&self) -> &{name}Repository" ["&self.repository"],
      "",
      listMethod b name,
      "",
      when key.exists? [getMethod caching name key, ""],
      block s!"pub async fn create(&self, input: Create{name}) -> Result<{name}, ApiError>" [
        "Ok(self.repository.create(&input).await?)"],
      when (isUpdatable e) ["", updateMethod caching name key],
      when key.exists? ["", deleteMethod caching key]] ]

end CrudGen.Rust
