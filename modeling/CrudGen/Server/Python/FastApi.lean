import CrudGen.Server.Python.Basic

/-!
# FastAPI servers

The schemas and routes of an entity, and the files that all entities share.
-/

namespace CrudGen.Python.FastApi

open Code

/-! ### Schemas and routes

The classes of inputs and answers, and the handlers of an entity on the paths that lead to them.
-/

/-- The argument that exposes a member under its plain name, if it has another one. -/
def alias? (f : Field) (kind : String) : List String :=
  if ident f.name == f.name then [] else [kind ++ "=" ++ literal f.name]

/-- The argument that checks the length of a text. -/
def lengthCheck (validation : Bool) (f : Field) : List String :=
  match f.type.length, validation && f.sqlType.isTextual with
  | some n, true => [s!"max_length={n}"]
  | _, _ => []

/-- A member, whose arguments stand in a call if there are any. -/
def schemaMember (f : Field) (type : String) (args : List String) : String :=
  ident f.name ++ ": " ++ type
    ++ (if args.isEmpty then "" else " = Field(" ++ commas args ++ ")")

/-- A member of what rows are created with. -/
def createMember (validation : Bool) (f : Field) : String :=
  let required := f.isRequiredInput
  let type := if required || f.type.nullable then f.type.name else s!"Optional[{f.type.inner}]"
  schemaMember f type ((if required then [] else ["default=None"])
    ++ lengthCheck validation f ++ alias? f "validation_alias")

/-- A member of what rows are changed with. -/
def updateMember (validation : Bool) (f : Field) : String :=
  schemaMember f s!"Optional[{f.type.inner}]"
    (["default=None"] ++ lengthCheck validation f ++ alias? f "validation_alias")

/-- The class of an input. -/
def inputClass (name : String) (members : List String) : Code :=
  suite s!"class {name}(BaseModel)" [
    when members.isEmpty ["pass"],
    ofLines members]

/-- The module of the schemas of an entity. -/
def schemaModule (b : Blueprint) (e : Entity) : List Code :=
  let name := e.names.entity
  let validation := b.features.validation
  [ "from __future__ import annotations",
    "",
    ofLines (typeImports b e.fields),
    "from typing import Optional",
    "",
    "from pydantic import BaseModel, ConfigDict, Field",
    "",
    "",
    inputClass s!"{name}Create" (e.inputFields.map (createMember validation)),
    "",
    "",
    inputClass s!"{name}Update" (e.inputFields.map (updateMember validation)),
    "",
    "",
    suite s!"class {name}Read(BaseModel)" [
      "model_config = ConfigDict(from_attributes=True)",
      "",
      each e.fields fun f => [schemaMember f f.type.name (alias? f "serialization_alias")]] ]

/-- The handler that lists rows. -/
def listHandler (b : Blueprint) (e : Entity) : List Code :=
  let name := e.names.entity
  let many := e.names.collection
  if b.features.pagination then [
    s!"@router.get(\"\", response_model=Page[{name}Read])",
    s!"def list_{many}(",
    "    params: PageParams = Depends(),",
    s!"    service: {name}Service = Depends(get_service),",
    suite s!") -> Page[{name}Read]" [
      "items, total = service.list(params.offset, params.per_page)",
      "return Page.build(items, total, params)"]]
  else [
    s!"@router.get(\"\", response_model=list[{name}Read])",
    suite (s!"def list_{many}(service: {name}Service = Depends(get_service))"
        ++ s!" -> list[{name}Read]") [
      "items, _ = service.list()",
      "return items"]]

/-- The handlers of rows that are addressed by a key. -/
def keyHandlers (e : Entity) : List Code :=
  let name := e.names.entity
  let single := e.names.single
  let path := String.join (e.keyFields.map fun f => "/" ++ Text.braced (ident f.name))
  let params := keyParams e
  let args := keyArgs e
  [ "",
    "",
    s!"@router.get(\"{path}\", response_model={name}Read)",
    suite (s!"def get_{single}({params}, service: {name}Service = Depends(get_service))"
        ++ s!" -> {name}Read") [
      s!"return service.get({args})"],
    "",
    "",
    s!"@router.put(\"{path}\", response_model={name}Read)",
    s!"def update_{single}(",
    s!"    {params},",
    s!"    body: {name}Update,",
    s!"    service: {name}Service = Depends(get_service),",
    suite s!") -> {name}Read" [
      s!"return service.update({args}, body.model_dump(exclude_unset=True))"],
    "",
    "",
    s!"@router.delete(\"{path}\", status_code=status.HTTP_204_NO_CONTENT)",
    suite (s!"def delete_{single}({params}, service: {name}Service = Depends(get_service))"
        ++ " -> None") [
      s!"service.delete({args})"] ]

/-- The module of the routes of an entity. -/
def routeModule (b : Blueprint) (e : Entity) : List Code :=
  let name := e.names.entity
  let file := moduleOf e
  [ "from __future__ import annotations",
    "",
    ofLines (typeImports b e.keyFields),
    "",
    "from fastapi import APIRouter, Depends, status",
    "from sqlalchemy.orm import Session",
    "",
    "from app.database import get_session",
    when b.features.pagination ["from app.pagination import Page, PageParams"],
    s!"from app.schemas.{file} import {name}Create, {name}Read, {name}Update",
    s!"from app.services.{file} import {name}Service",
    "",
    s!"router = APIRouter(prefix=\"/{e.names.route}\", tags=[" ++ literal e.names.route ++ "])",
    "",
    "",
    suite s!"def get_service(session: Session = Depends(get_session)) -> {name}Service" [
      s!"return {name}Service(session)"],
    "",
    "",
    all (listHandler b e),
    "",
    "",
    s!"@router.post(\"\", response_model={name}Read, status_code=status.HTTP_201_CREATED)",
    suite (s!"def create_{e.names.single}(body: {name}Create, "
        ++ s!"service: {name}Service = Depends(get_service)) -> {name}Read") [
      "return service.create(body.model_dump())"],
    when (!e.keyFields.isEmpty) (keyHandlers e) ]

/-! ### Shared files

The files that all entities share.
-/

/-- The module of the application. -/
def mainModule (b : Blueprint) : List Code :=
  let modules := b.entities.map moduleOf
  let guard := if b.features.auth then ", dependencies=[Depends(require_user)]" else ""
  [ "from fastapi import Depends, FastAPI",
    "",
    when b.features.auth ["from app.auth import require_user"],
    when b.features.rateLimit ["from app.rate_limit import install_rate_limit"],
    "from app.routes import " ++ commas modules,
    "",
    "app = FastAPI(title=" ++ literal b.project ++ ")",
    when b.features.rateLimit ["install_rate_limit(app)"],
    "",
    each modules fun m => [s!"app.include_router({m}.router, prefix=\"/api\"{guard})"] ]

/-- The module of the database sessions. -/
def databaseModule : List Code := [
  "import os",
  "from collections.abc import Iterator",
  "",
  "from sqlalchemy import create_engine",
  "from sqlalchemy.orm import DeclarativeBase, Session, sessionmaker",
  "",
  "engine = create_engine(os.environ[\"DATABASE_URL\"], pool_pre_ping=True)",
  "SessionLocal = sessionmaker(bind=engine, expire_on_commit=False)",
  "",
  "",
  suite "class Base(DeclarativeBase)" ["pass"],
  "",
  "",
  suite "def get_session() -> Iterator[Session]" [
    suite "with SessionLocal() as session" ["yield session"]]]

/-- The module of pages. -/
def paginationModule : List Code := [
  "from typing import Generic, TypeVar",
  "",
  "from fastapi import Query",
  "from pydantic import BaseModel",
  "",
  "T = TypeVar(\"T\")",
  "",
  "",
  suite "class PageParams" [
    "def __init__(",
    "    self,",
    "    page: int = Query(1, ge=1),",
    "    per_page: int = Query(20, ge=1, le=100),",
    suite ") -> None" [
      "self.page = page",
      "self.per_page = per_page"],
    "",
    "@property",
    suite "def offset(self) -> int" ["return (self.page - 1) * self.per_page"]],
  "",
  "",
  suite "class Page(BaseModel, Generic[T])" [
    "items: list[T]",
    "total: int",
    "page: int",
    "per_page: int",
    "",
    "@classmethod",
    suite "def build(cls, items, total: int, params: PageParams) -> \"Page[T]\"" [
      "return cls(items=items, total=total, page=params.page, per_page=params.per_page)"]]]

/-- The module that turns away requests without a valid token. -/
def authModule : List Code := [
  "import os",
  "",
  "import jwt",
  "from fastapi import Depends, HTTPException, status",
  "from fastapi.security import HTTPAuthorizationCredentials, HTTPBearer",
  "",
  "bearer = HTTPBearer()",
  "",
  "",
  suite ("def require_user(credentials: HTTPAuthorizationCredentials = Depends(bearer))"
      ++ " -> dict") [
    suite "try" [
      "return jwt.decode(credentials.credentials, os.environ[\"JWT_SECRET\"], "
        ++ "algorithms=[\"HS256\"])"],
    suite "except jwt.PyJWTError as exc" [
      "raise HTTPException(status.HTTP_401_UNAUTHORIZED, \"unauthorized\") from exc"]]]

/-- The module that limits how often requests come. -/
def rateLimitModule : List Code := [
  "from fastapi import FastAPI",
  "from slowapi import Limiter, _rate_limit_exceeded_handler",
  "from slowapi.errors import RateLimitExceeded",
  "from slowapi.middleware import SlowAPIMiddleware",
  "from slowapi.util import get_remote_address",
  "",
  "limiter = Limiter(key_func=get_remote_address, default_limits=[\"120/minute\"])",
  "",
  "",
  suite "def install_rate_limit(app: FastAPI) -> None" [
    "app.state.limiter = limiter",
    "app.add_exception_handler(RateLimitExceeded, _rate_limit_exceeded_handler)",
    "app.add_middleware(SlowAPIMiddleware)"]]

/-- The module of the cache. -/
def cacheModule : List Code := [
  "import threading",
  "import time",
  "from typing import Generic, Hashable, Optional, TypeVar",
  "",
  "T = TypeVar(\"T\")",
  "",
  "",
  suite "class TTLCache(Generic[T])" [
    "\"\"\"Process-local read-through cache for single rows.\"\"\"",
    "",
    suite "def __init__(self, ttl: float) -> None" [
      "self.ttl = ttl",
      "self._entries: dict[Hashable, tuple[float, T]] = \x7b\x7d",
      "self._lock = threading.Lock()"],
    "",
    suite "def get(self, key: Hashable) -> Optional[T]" [
      suite "with self._lock" ["entry = self._entries.get(key)"],
      suite "if entry is None or time.monotonic() - entry[0] > self.ttl" ["return None"],
      "return entry[1]"],
    "",
    suite "def put(self, key: Hashable, value: T) -> None" [
      suite "with self._lock" ["self._entries[key] = (time.monotonic(), value)"]],
    "",
    suite "def evict(self, key: Hashable) -> None" [
      suite "with self._lock" ["self._entries.pop(key, None)"]]]]

end CrudGen.Python.FastApi
