import CrudGen.Server.Python.Basic

/-!
# Repositories and services in Python

The rows of an entity are reached through a repository, and a repository through a service.
-/

namespace CrudGen.Python

open Code

/-! ### Repositories

A repository finds, stores and deletes the rows of an entity in a session.
-/

/-- What a row is looked up by: a scalar, or a tuple for a key of several columns. -/
def identity (e : Entity) : String :=
  match e.keyFields with
  | [single] => ident single.name
  | _ => "(" ++ keyArgs e ++ ",)"

/-- The constructor of a repository. -/
def Framework.repositoryInit : Framework → Code
  | .fastApi => suite "def __init__(self, session: Session) -> None" ["self.session = session"]
  | .flask => suite "def __init__(self) -> None" ["self.session = db.session"]

/-- The methods that list and count rows. -/
def listMethods (e : Entity) (marker : Option Field) : List Code :=
  let name := e.names.entity
  let live := String.join (marker.toList.map fun f =>
    s!".where({name}." ++ ident f.name ++ ".is_(None))")
  let keys := e.keyFields.map fun f => name ++ "." ++ ident f.name
  let order := if keys.isEmpty then "" else ".order_by(" ++ commas keys ++ ")"
  [ suite s!"def list(self, offset: int = 0, limit: Optional[int] = None) -> list[{name}]" [
      s!"stmt = select({name}){live}{order}.offset(offset)",
      suite "if limit is not None" ["stmt = stmt.limit(limit)"],
      "return list(self.session.scalars(stmt))"],
    "",
    suite "def count(self) -> int" [
      s!"return self.session.scalar(select(func.count()).select_from({name}){live}) or 0"] ]

/-- The method that finds a row. -/
def getMethod (e : Entity) (marker : Option Field) : List Code :=
  let name := e.names.entity
  [ "",
    suite ("def get(self, " ++ keyParams e ++ s!") -> Optional[{name}]") [
      s!"row = self.session.get({name}, " ++ identity e ++ ")",
      whenSome marker fun f => [
        suite ("if row is not None and row." ++ ident f.name ++ " is not None") ["return None"]],
      "return row"] ]

/-- The methods that store and delete rows. -/
def writeMethods (e : Entity) (marker : Option Field) : List Code :=
  let name := e.names.entity
  [ "",
    suite s!"def save(self, row: {name}) -> {name}" [
      "self.session.add(row)",
      "self.session.commit()",
      "self.session.refresh(row)",
      "return row"],
    "",
    suite s!"def delete(self, row: {name}) -> None" [
      match marker with
      | some f => "row." ++ ident f.name ++ " = datetime.datetime.now(datetime.timezone.utc)"
      | none => "self.session.delete(row)",
      "self.session.commit()"] ]

/-- The module of a repository. -/
def repositoryModule (framework : Framework) (b : Blueprint) (e : Entity) : List Code :=
  let name := e.names.entity
  let marker := if b.features.softDelete then e.softDeleteField? else none
  let imports := typeImports b e.keyFields
  [ "from __future__ import annotations",
    "",
    when marker.isSome ["import datetime"],
    ofLines (imports.filter fun line => marker.isNone || line != "import datetime"),
    "from typing import Optional",
    "",
    "from sqlalchemy import func, select",
    when (framework == .fastApi) ["from sqlalchemy.orm import Session"],
    "",
    when (framework == .flask) ["from app.extensions import db"],
    "from app.models." ++ moduleOf e ++ s!" import {name}",
    "",
    "",
    suite s!"class {name}Repository" [
      framework.repositoryInit,
      "",
      all (listMethods e marker),
      when (!e.keyFields.isEmpty) (getMethod e marker),
      all (writeMethods e marker)] ]

/-! ### Services

A service stands between the routes and a repository. It keeps single rows in a cache if that is
asked for, and reports rows that are not there.
-/

/-- The imports that services need from a framework. -/
def Framework.serviceImports : Framework → Code
  | .fastApi => all [
    "from fastapi import HTTPException, status",
    "from sqlalchemy.orm import Session"]
  | .flask => "from werkzeug.exceptions import NotFound"

/-- The constructor of a service. -/
def Framework.serviceInit (name : String) : Framework → Code
  | .fastApi => suite "def __init__(self, session: Session) -> None" [
    s!"self.repository = {name}Repository(session)"]
  | .flask => suite "def __init__(self) -> None" [s!"self.repository = {name}Repository()"]

/-- Reports that there is no row. -/
def Framework.notFound (name : String) : Framework → String
  | .fastApi =>
    "raise HTTPException(status.HTTP_404_NOT_FOUND, " ++ literal s!"{name} not found" ++ ")"
  | .flask => "raise NotFound(" ++ literal s!"{name} not found" ++ ")"

/-- The methods for rows that are addressed by a key. -/
def keyServices (framework : Framework) (caching : Bool) (e : Entity) : List Code :=
  let name := e.names.entity
  let params := keyParams e
  let args := keyArgs e
  [ "",
    suite s!"def get(self, {params}) -> {name}" [
      when caching [
        s!"cached = _cache.get(({args},))",
        suite "if cached is not None" ["return cached"]],
      s!"row = self.repository.get({args})",
      suite "if row is None" [framework.notFound name],
      when caching [s!"_cache.put(({args},), row)"],
      "return row"],
    "",
    suite s!"def update(self, {params}, data: dict[str, Any]) -> {name}" [
      s!"row = self.get({args})",
      suite "for key, value in data.items()" ["setattr(row, key, value)"],
      when caching [s!"_cache.evict(({args},))"],
      "return self.repository.save(row)"],
    "",
    suite s!"def delete(self, {params}) -> None" [
      s!"row = self.get({args})",
      when caching [s!"_cache.evict(({args},))"],
      "self.repository.delete(row)"] ]

/-- The module of a service. -/
def serviceModule (framework : Framework) (b : Blueprint) (e : Entity) : List Code :=
  let name := e.names.entity
  let file := moduleOf e
  let caching := b.features.caching && !e.keyFields.isEmpty
  [ "from __future__ import annotations",
    "",
    ofLines (typeImports b e.keyFields),
    "from typing import Any, Optional",
    "",
    framework.serviceImports,
    "",
    when caching ["from app.cache import TTLCache"],
    s!"from app.models.{file} import {name}",
    s!"from app.repositories.{file} import {name}Repository",
    when caching [
      "",
      s!"_cache: TTLCache[{name}] = TTLCache(ttl=60)"],
    "",
    "",
    suite s!"class {name}Service" [
      framework.serviceInit name,
      "",
      suite ("def list(self, offset: int = 0, limit: Optional[int] = None)"
          ++ s!" -> tuple[list[{name}], int]") [
        "return self.repository.list(offset, limit), self.repository.count()"],
      when (!e.keyFields.isEmpty) (keyServices framework caching e),
      "",
      suite s!"def create(self, data: dict[str, Any]) -> {name}" [
        s!"return self.repository.save({name}(**data))"]] ]

end CrudGen.Python
