import CrudGen.Server.Python.Basic

/-!
# Flask servers

The schemas and routes of an entity, and the files that all entities share.
-/

namespace CrudGen.Python.Flask

open Code

/-! ### Schemas and routes

The schema by which rows are read and written, and the handlers of an entity on the paths that lead
to them.
-/

/-- The kind of member that a type is. -/
def memberKind : SqlType → String
  | .smallInt | .integer | .bigInt => "Integer"
  | .decimal => "Decimal"
  | .real | .double => "Float"
  | .boolean => "Boolean"
  | .date => "Date"
  | .time => "Time"
  | .timestamp | .timestampTz => "DateTime"
  | .interval => "TimeDelta"
  | .uuid => "UUID"
  | .json => "Raw"
  | .array _ => "List"
  | _ => "String"

/-- The member of a schema. -/
def schemaMember (validation : Bool) (f : Field) : String :=
  let option (condition : Bool) (text : String) : List String := if condition then [text] else []
  let length :=
    match f.type.length, validation && f.sqlType.isTextual with
    | some n, true => [s!"validate=validate.Length(max={n})"]
    | _, _ => []
  let args :=
    option f.sqlType.isArray "fields.Raw()"
      ++ option f.isGenerated "dump_only=True"
      ++ option f.isRequiredInput "required=True"
      ++ option f.type.nullable "allow_none=True"
      ++ length
      ++ option (ident f.name != f.column) ("data_key=" ++ literal f.column)
  ident f.name ++ " = fields." ++ memberKind f.sqlType ++ "(" ++ commas args ++ ")"

/-- The module of the schema of an entity. -/
def schemaModule (b : Blueprint) (e : Entity) : List Code :=
  let name := e.names.entity
  let validate := if b.features.validation then ", validate" else ""
  [ "from marshmallow import Schema, fields" ++ validate,
    "",
    "",
    suite s!"class {name}Schema(Schema)" [
      each e.fields fun f => [schemaMember b.features.validation f]],
    "",
    "",
    s!"{e.names.single}_schema = {name}Schema()",
    s!"{e.names.collection}_schema = {name}Schema(many=True)",
    s!"{e.names.single}_update_schema = {name}Schema(partial=True)" ]

/-- The part of a path that is a part of a key. -/
def pathPart (f : Field) : String :=
  "/<" ++ (if f.type.inner == "int" then "int:" else "") ++ ident f.name ++ ">"

/-- The handler that lists rows. -/
def listHandler (b : Blueprint) (e : Entity) : Code :=
  let name := e.names.entity
  let many := e.names.collection
  suite s!"def list_{many}()" (
    if b.features.pagination then [
      "page, per_page = page_params(request.args)",
      s!"items, total = {name}Service().list((page - 1) * per_page, per_page)",
      s!"return jsonify(items={many}_schema.dump(items), total=total, page=page, "
        ++ "per_page=per_page)"]
    else [
      s!"items, _ = {name}Service().list()",
      s!"return jsonify({many}_schema.dump(items))"])

/-- The handlers of rows that are addressed by a key. -/
def keyHandlers (e : Entity) : List Code :=
  let name := e.names.entity
  let single := e.names.single
  let path := String.join (e.keyFields.map pathPart)
  let key := keyArgs e
  [ "",
    "",
    s!"@bp.get(\"{path}\")",
    suite s!"def get_{single}({key})" [
      s!"return jsonify({single}_schema.dump({name}Service().get({key})))"],
    "",
    "",
    s!"@bp.put(\"{path}\")",
    suite s!"def update_{single}({key})" [
      s!"data = {single}_update_schema.load(request.get_json() or \x7b\x7d)",
      s!"return jsonify({single}_schema.dump({name}Service().update({key}, data)))"],
    "",
    "",
    s!"@bp.delete(\"{path}\")",
    suite s!"def delete_{single}({key})" [
      s!"{name}Service().delete({key})",
      "return \"\", 204"] ]

/-- The module of the routes of an entity. -/
def routeModule (b : Blueprint) (e : Entity) : List Code :=
  let name := e.names.entity
  let file := moduleOf e
  let single := e.names.single
  let many := e.names.collection
  [ "from flask import Blueprint, jsonify, request",
    "",
    when b.features.pagination ["from app.pagination import page_params"],
    s!"from app.schemas.{file} import {single}_schema, {many}_schema, {single}_update_schema",
    s!"from app.services.{file} import {name}Service",
    "",
    "bp = Blueprint(" ++ literal many ++ s!", __name__, url_prefix=\"/{e.names.route}\")",
    "",
    "",
    "@bp.get(\"\")",
    listHandler b e,
    "",
    "",
    "@bp.post(\"\")",
    suite s!"def create_{single}()" [
      s!"data = {single}_schema.load(request.get_json() or \x7b\x7d)",
      s!"row = {name}Service().create(data)",
      s!"return jsonify({single}_schema.dump(row)), 201"],
    when (!e.keyFields.isEmpty) (keyHandlers e) ]

/-! ### Shared files

The files that all entities share.
-/

/-- The module that makes the application. -/
def factoryModule (b : Blueprint) : List Code :=
  let modules := b.entities.map moduleOf
  let f := b.features
  [ "import os",
    "",
    "from flask import Blueprint, Flask",
    when f.validation ["from marshmallow import ValidationError"],
    "",
    when f.auth ["from app.auth import require_user"],
    "from app.extensions import db",
    when f.rateLimit ["from app.extensions import limiter"],
    "from app.routes import " ++ commas modules,
    "",
    "",
    suite "def create_app() -> Flask" [
      "app = Flask(" ++ literal b.project ++ ")",
      "app.config[\"SQLALCHEMY_DATABASE_URI\"] = os.environ[\"DATABASE_URL\"]",
      "db.init_app(app)",
      when f.rateLimit ["limiter.init_app(app)"],
      "",
      "api = Blueprint(\"api\", __name__, url_prefix=\"/api\")",
      when f.auth ["api.before_request(require_user)"],
      each modules fun m => [s!"api.register_blueprint({m}.bp)"],
      "app.register_blueprint(api)",
      when f.validation [
        "",
        "@app.errorhandler(ValidationError)",
        suite "def invalid(err: ValidationError)" [
          "return \x7b\"error\": err.messages\x7d, 422"]],
      "",
      "return app"] ]

/-- The module of what the application is extended with. -/
def extensionModule (b : Blueprint) : List Code := [
  "from flask_sqlalchemy import SQLAlchemy",
  when b.features.rateLimit [
    "from flask_limiter import Limiter",
    "from flask_limiter.util import get_remote_address"],
  "",
  "db = SQLAlchemy()",
  when b.features.rateLimit [
    "limiter = Limiter(get_remote_address, default_limits=[\"120 per minute\"])"]]

/-- The module of pages. -/
def paginationModule : List Code := [
  "MAX_PER_PAGE = 100",
  "",
  "",
  suite "def page_params(args) -> tuple[int, int]" [
    "page = max(1, args.get(\"page\", 1, type=int))",
    "per_page = min(MAX_PER_PAGE, max(1, args.get(\"per_page\", 20, type=int)))",
    "return page, per_page"]]

/-- The module that turns away requests without a valid token. -/
def authModule : List Code := [
  "import os",
  "",
  "import jwt",
  "from flask import g, request",
  "",
  "",
  suite "def require_user()" [
    "header = request.headers.get(\"Authorization\", \"\")",
    suite "if not header.startswith(\"Bearer \")" [
      "return \x7b\"error\": \"unauthorized\"\x7d, 401"],
    suite "try" [
      "g.claims = jwt.decode(header[7:], os.environ[\"JWT_SECRET\"], algorithms=[\"HS256\"])"],
    suite "except jwt.PyJWTError" ["return \x7b\"error\": \"unauthorized\"\x7d, 401"],
    "return None"]]

end CrudGen.Python.Flask
