import CrudGen.Server.Rust.Basic

/-!
# Repositories in Rust

A repository runs the statements of an entity, and loads the rows that its relations lead to.
-/

namespace CrudGen.Rust

open Code

/-- The query for rows of a structure. -/
def rowQuery (row sql : String) : String :=
  s!"sqlx::query_as::<_, {row}>(" ++ raw sql ++ ")"

/-- Binds the inputs of an entity in order. -/
def inputBinds (e : Entity) : Code :=
  each e.inputFields fun f => ["    .bind(&input." ++ ident f.name ++ ")"]

/-- The method that loads what a relation leads to. -/
def relationLoader (e : Entity) (r : Relation) : List Code :=
  let many := r.kind.isCollection
  let row := r.targetEntity
  let returns := if many then s!"Vec<{row}>" else s!"Option<{row}>"
  let fetch := if many then "fetch_all" else "fetch_optional"
  [ "",
    when r.deferred [s!"/// Loaded on demand; `{r.targetTable}` is generated later."],
    block ("pub async fn " ++ ident r.name
        ++ s!"(&self, row: &{e.names.entity}) -> Result<{returns}, sqlx::Error>") [
      rowQuery row (Sql.related r),
      each (r.localColumns.filterMap e.field?) fun f => [
        "    .bind(&row." ++ ident f.name ++ ")"],
      s!"    .{fetch}(&self.pool)",
      "    .await"] ]

/-- The methods that read rows. -/
def readMethods (b : Blueprint) (e : Entity) (statements : Sql.Statements) : List Code :=
  let name := e.names.entity
  let key := Key.ofEntity e
  let paged := b.features.pagination
  let page := if paged then ", limit: i64, offset: i64" else ""
  [ block s!"pub async fn list(&self{page}) -> Result<Vec<{name}>, sqlx::Error>" [
      rowQuery name statements.list,
      when paged ["    .bind(limit)", "    .bind(offset)"],
      "    .fetch_all(&self.pool)",
      "    .await"],
    "",
    block "pub async fn count(&self) -> Result<i64, sqlx::Error>" [
      "sqlx::query_scalar(" ++ raw statements.count ++ ")",
      "    .fetch_one(&self.pool)",
      "    .await"],
    "",
    whenSome statements.find fun sql => [
      block s!"pub async fn find(&self, {key.params}) -> Result<Option<{name}>, sqlx::Error>" [
        rowQuery name sql,
        s!"    {key.binds}",
        "    .fetch_optional(&self.pool)",
        "    .await"],
      ""] ]

/-- The methods that create, change and delete rows. -/
def writeMethods (e : Entity) (statements : Sql.Statements) : List Code :=
  let name := e.names.entity
  let key := Key.ofEntity e
  [ block s!"pub async fn create(&self, input: &Create{name}) -> Result<{name}, sqlx::Error>" [
      rowQuery name statements.insert,
      inputBinds e,
      "    .fetch_one(&self.pool)",
      "    .await"],
    whenSome statements.update fun sql => [
      "",
      block (s!"pub async fn update(&self, {key.params}, input: &Update{name})"
          ++ s!" -> Result<Option<{name}>, sqlx::Error>") [
        rowQuery name sql,
        inputBinds e,
        s!"    {key.binds}",
        "    .fetch_optional(&self.pool)",
        "    .await"]],
    whenSome statements.delete fun sql => [
      "",
      block s!"pub async fn delete(&self, {key.params}) -> Result<bool, sqlx::Error>" [
        "let result = sqlx::query(" ++ raw sql ++ ")",
        s!"    {key.binds}",
        "    .execute(&self.pool)",
        "    .await?;",
        "Ok(result.rows_affected() > 0)"]] ]

/-- The module of a repository. -/
def repositoryModule (b : Blueprint) (e : Entity) : List Code :=
  let name := e.names.entity
  let statements := Sql.Statements.ofEntity e b.features.pagination b.features.softDelete
  [ "use sqlx::PgPool;",
    "",
    inputImport e,
    rowImport e,
    each e.neighbours fun (file, entity) => [s!"use crate::models::{file}::{entity};"],
    "",
    "#[derive(Clone)]",
    block s!"pub struct {name}Repository" ["pool: PgPool,"],
    "",
    block s!"impl {name}Repository" [
      block "pub fn new(pool: PgPool) -> Self" ["Self \x7b pool \x7d"],
      "",
      all (readMethods b e statements),
      all (writeMethods e statements),
      each e.relations (relationLoader e)] ]

end CrudGen.Rust
