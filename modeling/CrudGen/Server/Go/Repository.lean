import CrudGen.Server.Go.Basic

/-!
# Repositories and services in Go

The rows of an entity are reached through a repository, and a repository through a service.
-/

namespace CrudGen.Go

open Code

/-! ### Repositories

A repository finds, stores and deletes the rows of an entity.
-/

/-- The condition that a row has a key, with the values of its places. -/
def keyCondition (e : Entity) : String :=
  quoted (" AND ".intercalate (e.keyFields.map fun f => s!"{f.column} = ?")) ++ ", " ++ keyArgs e

/-- A method of a repository. -/
def repositoryMethod (e : Entity) (signature : String) (body : List Code) : Code :=
  block (s!"func (r *{e.names.entity}Repository) " ++ signature) body

/-- The method that lists rows with their number. -/
def listMethod (e : Entity) (live : String) : Code :=
  let name := e.names.entity
  let columns := e.keyFields.map (·.column)
  let order := if columns.isEmpty then "" else ".Order(" ++ quoted (", ".intercalate columns) ++ ")"
  repositoryMethod e
      s!"List(ctx context.Context, offset, limit int) ([]models.{name}, int64, error)" [
    s!"var rows []models.{name}",
    "var total int64",
    s!"query := r.db.WithContext(ctx).Model(&models.{name}\x7b\x7d){live}",
    block "if err := query.Count(&total).Error; err != nil" ["return nil, 0, err"],
    block "if limit > 0" ["query = query.Offset(offset).Limit(limit)"],
    s!"err := query{order}.Find(&rows).Error",
    "return rows, total, err"]

/-- The method that finds a row with the rows that its relations lead to. -/
def getMethod (e : Entity) (live : String) : List Code :=
  let name := e.names.entity
  let loaded := String.join (e.relations.map fun r => s!".Preload(\"{r.name}\")")
  [ "",
    repositoryMethod e
        ("Get(ctx context.Context, " ++ keyParams e ++ s!") (*models.{name}, error)") [
      s!"var row models.{name}",
      s!"err := r.db.WithContext(ctx){loaded}{live}.Where(" ++ keyCondition e
        ++ ").First(&row).Error",
      block "if err != nil" ["return nil, err"],
      "return &row, nil"] ]

/-- The source of a repository. -/
def repositorySource (b : Blueprint) (e : Entity) : List Code :=
  let name := e.names.entity
  let repository := s!"{name}Repository"
  let marker := if b.features.softDelete then e.softDeleteField? else none
  let live := String.join (marker.toList.map fun f => s!".Where(\"{f.column} IS NULL\")")
  let imports :=
    ["context", "gorm.io/gorm", "gorm.io/gorm/clause", package b "models"]
      ++ typeImports b e.keyFields ++ (if marker.isSome then ["time"] else [])
  sourceOf b "repository" imports [
    block s!"type {repository} struct" ["db *gorm.DB"],
    "",
    block s!"func New{repository}(db *gorm.DB) *{repository}" [
      s!"return &{repository}\x7bdb: db\x7d"],
    "",
    listMethod e live,
    when (!e.keyFields.isEmpty) (getMethod e live),
    "",
    repositoryMethod e s!"Create(ctx context.Context, row *models.{name}) error" [
      "return r.db.WithContext(ctx).Create(row).Error"],
    "",
    repositoryMethod e s!"Save(ctx context.Context, row *models.{name}) error" [
      "return r.db.WithContext(ctx).Omit(clause.Associations).Save(row).Error"],
    "",
    repositoryMethod e s!"Delete(ctx context.Context, row *models.{name}) error" [
      match marker with
      | some f =>
        s!"return r.db.WithContext(ctx).Model(row).Update(\"{f.column}\", time.Now()).Error"
      | none => "return r.db.WithContext(ctx).Delete(row).Error"]]

/-! ### Services

A service stands between the handlers and a repository. It keeps single rows in a cache if that is
asked for, and reports rows that are not there.
-/

/-- A method of a service. -/
def serviceMethod (e : Entity) (signature : String) (body : List Code) : Code :=
  block (s!"func (s *{e.names.entity}Service) " ++ signature) body

/-- Gives an error on, if there is one. -/
def passOn : Code :=
  block "if err != nil" ["return nil, err"]

/-- The method that creates a row. Inputs that may be left out are set one by one. -/
def createMethod (e : Entity) : Code :=
  let name := e.names.entity
  let (given, optional) := e.inputFields.partition fun f => f.isRequiredInput || f.type.nullable
  serviceMethod e
      s!"Create(ctx context.Context, req dto.Create{name}Request) (*models.{name}, error)" [
    either given.isEmpty [s!"row := models.{name}\x7b\x7d"] [
      s!"row := models.{name}\x7b",
      each given fun f => [s!"\t{f.name}: req.{f.name},"],
      "\x7d"],
    each optional fun f => [block s!"if req.{f.name} != nil" [s!"row.{f.name} = *req.{f.name}"]],
    block "if err := s.repo.Create(ctx, &row); err != nil" ["return nil, err"],
    "return &row, nil"]

/-- The method that finds a row. -/
def findMethod (e : Entity) (caching : Bool) : Code :=
  serviceMethod e
      ("Get(ctx context.Context, " ++ keyParams e ++ s!") (*models.{e.names.entity}, error)") [
    when caching [
      block ("if cached, ok := s.cache.Get(" ++ cacheKey e ++ "); ok") ["return &cached, nil"]],
    "row, err := s.repo.Get(ctx, " ++ keyArgs e ++ ")",
    block "if errors.Is(err, gorm.ErrRecordNotFound)" ["return nil, ErrNotFound"],
    passOn,
    when caching ["s.cache.Put(" ++ cacheKey e ++ ", *row)"],
    "return row, nil"]

/-- The method that changes a row. -/
def updateMethod (e : Entity) (caching : Bool) : Code :=
  let name := e.names.entity
  serviceMethod e ("Update(ctx context.Context, " ++ keyParams e
      ++ s!", req dto.Update{name}Request) (*models.{name}, error)") [
    "row, err := s.Get(ctx, " ++ keyArgs e ++ ")",
    passOn,
    each e.inputFields fun f => [
      block s!"if req.{f.name} != nil" [
        s!"row.{f.name} = " ++ (if f.type.nullable then "" else "*") ++ s!"req.{f.name}"]],
    block "if err := s.repo.Save(ctx, row); err != nil" ["return nil, err"],
    when caching ["s.cache.Evict(" ++ cacheKey e ++ ")"],
    "return row, nil"]

/-- The method that deletes a row. -/
def deleteMethod (e : Entity) (caching : Bool) : Code :=
  serviceMethod e ("Delete(ctx context.Context, " ++ keyParams e ++ ") error") [
    "row, err := s.Get(ctx, " ++ keyArgs e ++ ")",
    block "if err != nil" ["return err"],
    when caching ["s.cache.Evict(" ++ cacheKey e ++ ")"],
    "return s.repo.Delete(ctx, row)"]

/-- What a service imports. -/
def serviceImports (b : Blueprint) (e : Entity) (caching : Bool) : List String :=
  ["context", package b "dto", package b "models", package b "repository"]
    ++ typeImports b e.keyFields
    ++ (if e.keyFields.isEmpty then [] else ["errors", "gorm.io/gorm"])
    ++ (if caching then ["fmt", "time", package b "cache"] else [])

/-- The source of a service. -/
def serviceSource (b : Blueprint) (e : Entity) : List Code :=
  let name := e.names.entity
  let service := s!"{name}Service"
  let caching := b.features.caching && !e.keyFields.isEmpty
  sourceOf b "service" (serviceImports b e caching) [
    block s!"type {service} struct" [
      s!"repo *repository.{name}Repository",
      when caching [s!"cache *cache.Cache[models.{name}]"]],
    "",
    block s!"func New{service}(repo *repository.{name}Repository) *{service}" [
      either caching
        [s!"return &{service}\x7brepo: repo, cache: cache.New[models.{name}](time.Minute)\x7d"]
        [s!"return &{service}\x7brepo: repo\x7d"]],
    "",
    serviceMethod e
        s!"List(ctx context.Context, offset, limit int) ([]models.{name}, int64, error)" [
      "return s.repo.List(ctx, offset, limit)"],
    "",
    createMethod e,
    when (!e.keyFields.isEmpty) [
      "",
      findMethod e caching,
      "",
      updateMethod e caching,
      "",
      deleteMethod e caching]]

end CrudGen.Go
