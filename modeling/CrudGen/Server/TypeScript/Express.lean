import CrudGen.Server.Statements
import CrudGen.Server.TypeScript.Basic

/-!
# Express servers

The modules of an Express server: the rows and inputs of an entity, its repository, its service and
its routes, and the files that all entities share.
-/

namespace CrudGen.TypeScript.Express

open Code

/-! ### Rows and inputs

The interface of a row with the function that reads one, and the types of the inputs.
-/

/-- The module of a row. Imports are of types only, so that modules may import each other. -/
def rowModule (e : Entity) : List Code :=
  let name := e.names.entity
  [ each e.neighbours fun (file, entity) => [
      s!"import type \x7b {entity} \x7d from './{file}';"],
    when (!e.neighbours.isEmpty) [""],
    s!"export const {e.names.constant}_TABLE = " ++ literal e.table.name ++ ";",
    "",
    block s!"export interface {name}" [
      each e.fields fun f => [
        whenSome f.comment fun comment => [s!"/** {comment} */"],
        s!"{f.name}: {f.type.name};"],
      each e.relations fun r => [s!"{r.name}?: " ++ relationType r ++ ";"]],
    "",
    block s!"export function to{name}(row: Record<string, unknown>): {name}" [
      block "return" [
        each e.fields fun f => [
          s!"{f.name}: row[" ++ literal f.column ++ s!"] as {f.type.name},"]] ";"]]

/-- What values of a type are checked for. -/
def typeCheck (f : Field) : String :=
  match f.type.inner with
  | "number" => if f.sqlType.isInteger then "z.number().int()" else "z.number()"
  | "boolean" => "z.boolean()"
  | "Date" => "z.coerce.date()"
  | "Buffer" => "z.instanceof(Buffer)"
  | "string" =>
    if f.sqlType == .uuid then "z.string().uuid()"
    else match f.type.length, f.sqlType.isTextual with
      | some max, true => s!"z.string().max({max})"
      | _, _ => "z.string()"
  | inner => if inner.endsWith "[]" then "z.array(z.unknown())" else "z.unknown()"

/-- What an input is checked for. -/
def check (f : Field) : String :=
  typeCheck f ++ (if f.type.nullable then ".nullable()" else "")
    ++ (if f.isRequiredInput then "" else ".optional()")

/-- The module of the inputs. -/
def inputModule (b : Blueprint) (e : Entity) : List Code :=
  let name := e.names.entity
  if b.features.validation then [
    "import \x7b z \x7d from 'zod';",
    "",
    call s!"export const create{name}Schema = z.object" [
      each e.inputFields fun f => [s!"{f.name}: " ++ check f ++ ","]] ";",
    "",
    s!"export const update{name}Schema = create{name}Schema.partial();",
    "",
    s!"export type Create{name}Dto = z.infer<typeof create{name}Schema>;",
    s!"export type Update{name}Dto = z.infer<typeof update{name}Schema>;"]
  else [
    block s!"export interface Create{name}Dto" [
      each e.inputFields fun f => [
        f.name ++ (if f.isRequiredInput then "" else "?") ++ s!": {f.type.name};"]],
    "",
    s!"export type Update{name}Dto = Partial<Create{name}Dto>;"]

/-! ### Repositories

A repository runs the statements of an entity, and loads the rows that its relations lead to.
-/

/-- Runs a statement with values for its parameters. -/
def query (sql : String) (values : List String) : String :=
  "await pool.query(" ++ Text.quote sql ++ ", [" ++ ", ".intercalate values ++ "]);"

/-- Runs a statement for the rows that it gives. -/
def rowsOf (sql : String) (values : List String) : String :=
  "const \x7b rows \x7d = " ++ query sql values

/-- Gives back the first of the rows that a statement gave, if there is one. -/
def firstRow (entity : String) : String :=
  s!"return rows[0] ? to{entity}(rows[0]) : undefined;"

/-- The values of the inputs in order. -/
def inputValues (e : Entity) : List String :=
  e.inputFields.map fun f => s!"input.{f.name} ?? null"

/-- The methods that read rows. -/
def readMethods (b : Blueprint) (e : Entity) (statements : Sql.Statements) : List Code :=
  let name := e.names.entity
  [ if b.features.pagination then
      block s!"async list(limit: number, offset: number): Promise<{name}[]>" [
        rowsOf statements.list ["limit", "offset"],
        s!"return rows.map(to{name});"]
    else
      block s!"async list(): Promise<{name}[]>" [
        "const \x7b rows \x7d = await pool.query(" ++ Text.quote statements.list ++ ");",
        s!"return rows.map(to{name});"],
    "",
    block "async count(): Promise<number>" [
      "const \x7b rows \x7d = await pool.query(" ++ Text.quote statements.count ++ ");",
      "return Number(rows[0].count);"],
    whenSome statements.find fun sql => [
      "",
      block (s!"async find(" ++ keyParams e ++ s!"): Promise<{name} | undefined>") [
        rowsOf sql (keyNames e),
        firstRow name]] ]

/-- The methods that create, change and delete rows. -/
def writeMethods (e : Entity) (statements : Sql.Statements) : List Code :=
  let name := e.names.entity
  [ "",
    block s!"async create(input: Create{name}Dto): Promise<{name}>" [
      rowsOf statements.insert (inputValues e),
      s!"return to{name}(rows[0]);"],
    whenSome statements.update fun sql => [
      "",
      block ("async update(" ++ keyParams e
          ++ s!", input: Update{name}Dto): Promise<{name} | undefined>") [
        rowsOf sql (inputValues e ++ keyNames e),
        firstRow name]],
    whenSome statements.delete fun sql => [
      "",
      block ("async delete(" ++ keyParams e ++ "): Promise<boolean>") [
        "const result = " ++ query sql (keyNames e),
        "return (result.rowCount ?? 0) > 0;"]] ]

/-- The method that loads what a relation leads to. -/
def relationLoader (e : Entity) (r : Relation) : List Code :=
  let many := r.kind.isCollection
  let other := r.targetEntity
  let returns := if many then s!"{other}[]" else s!"{other} | undefined"
  [ "",
    block s!"async {r.name}(row: {e.names.entity}): Promise<{returns}>" [
      rowsOf (Sql.related r) ((r.localColumns.filterMap e.field?).map fun f => s!"row.{f.name}"),
      if many then s!"return rows.map(to{other});" else firstRow other] ]

/-- The module of a repository. -/
def repositoryModule (b : Blueprint) (e : Entity) : List Code :=
  let name := e.names.entity
  let file := e.names.file
  let statements := Sql.Statements.ofEntity e b.features.pagination b.features.softDelete
  [ "import \x7b pool \x7d from '../db';",
    s!"import \x7b Create{name}Dto, Update{name}Dto \x7d from '../dto/{file}.dto';",
    s!"import \x7b {name}, to{name} \x7d from '../models/{file}';",
    each e.neighbours fun (file, other) => [
      s!"import \x7b {other}, to{other} \x7d from '../models/{file}';"],
    "",
    block s!"export class {name}Repository" [
      all (readMethods b e statements),
      all (writeMethods e statements),
      each e.relations (relationLoader e)] ]

/-! ### Services

A service stands between the routes and a repository. It counts pages and reports rows that are not
there.
-/

/-- Reports that there is no row. -/
def notFound (e : Entity) : String :=
  "throw new NotFoundError(" ++ literal e.names.entity ++ ");"

/-- The method that lists rows. -/
def listMethod (b : Blueprint) (e : Entity) : Code :=
  let name := e.names.entity
  if b.features.pagination then
    block s!"async list(params: PageParams): Promise<Page<{name}>>" [
      "const [items, total] = await Promise.all([",
      "  this.repository.list(params.limit, params.offset),",
      "  this.repository.count(),",
      "]);",
      "return \x7b items, total, page: params.page, perPage: params.limit \x7d;"]
  else
    block s!"list(): Promise<{name}[]>" ["return this.repository.list();"]

/-- A method that gives back a row of the repository. -/
def rowMethod (e : Entity) (head call : String) : List Code := [
  "",
  block (head ++ s!": Promise<{e.names.entity}>") [
    s!"const row = await this.repository.{call};",
    "if (!row) " ++ notFound e,
    "return row;"]]

/-- The module of a service. -/
def serviceModule (b : Blueprint) (e : Entity) : List Code :=
  let name := e.names.entity
  let file := e.names.file
  let params := keyParams e
  let args := keyArgs e
  let keyed := !e.keyFields.isEmpty
  [ s!"import \x7b Create{name}Dto, Update{name}Dto \x7d from '../dto/{file}.dto';",
    "import \x7b NotFoundError \x7d from '../middleware/error';",
    s!"import \x7b {name} \x7d from '../models/{file}';",
    when b.features.pagination ["import \x7b Page, PageParams \x7d from '../pagination';"],
    s!"import \x7b {name}Repository \x7d from '../repositories/{file}.repository';",
    "",
    block s!"export class {name}Service" [
      s!"constructor(private readonly repository = new {name}Repository()) \x7b\x7d",
      "",
      listMethod b e,
      when keyed (rowMethod e s!"async get({params})" s!"find({args})"),
      "",
      block s!"create(input: Create{name}Dto): Promise<{name}>" [
        "return this.repository.create(input);"],
      when (keyed && !e.inputFields.isEmpty)
        (rowMethod e s!"async update({params}, input: Update{name}Dto)" s!"update({args}, input)"),
      when keyed [
        "",
        block s!"async delete({params}): Promise<void>" [
          s!"if (!(await this.repository.delete({args}))) " ++ notFound e]]] ]

/-! ### Routes

The handlers of an entity on the paths that lead to them.
-/

/-- The handler of a method on a path. -/
def handler (e : Entity) (method path : String) (body : List Code) : Code :=
  block (s!"{e.names.single}Router.{method}(" ++ literal path ++ ", async (req, res) =>") body ");"

/-- The body of a request, checked if that is asked for. -/
def requestBody (b : Blueprint) (schema : String) : String :=
  if b.features.validation then s!"{schema}.parse(req.body)" else "req.body"

/-- The handlers of rows that are addressed by a key. -/
def keyHandlers (b : Blueprint) (e : Entity) (path : String) : List Code :=
  let args := ", ".intercalate (e.keyFields.map fun f => parsed f s!"req.params.{f.name}")
  [ "",
    handler e "get" path [s!"res.json(await service.get({args}));"],
    when (!e.inputFields.isEmpty) [
      "",
      handler e "put" path [
        s!"res.json(await service.update({args}, "
          ++ requestBody b s!"update{e.names.entity}Schema" ++ "));"]],
    "",
    handler e "delete" path [
      s!"await service.delete({args});",
      "res.status(204).end();"] ]

/-- The module of the routes of an entity. -/
def routeModule (b : Blueprint) (e : Entity) : List Code :=
  let name := e.names.entity
  let file := e.names.file
  let base := s!"/{e.names.route}"
  let item := String.join (e.keyFields.map fun f => s!"/:{f.name}")
  [ "import \x7b Router \x7d from 'express';",
    when b.features.validation [
      s!"import \x7b create{name}Schema, update{name}Schema \x7d from '../dto/{file}.dto';"],
    when b.features.pagination ["import \x7b pageParams \x7d from '../pagination';"],
    s!"import \x7b {name}Service \x7d from '../services/{file}.service';",
    "",
    s!"const service = new {name}Service();",
    "",
    s!"export const {e.names.single}Router = Router();",
    "",
    handler e "get" base [
      if b.features.pagination then "res.json(await service.list(pageParams(req.query)));"
      else "res.json(await service.list());"],
    "",
    handler e "post" base [
      "res.status(201).json(await service.create(" ++ requestBody b s!"create{name}Schema"
        ++ "));"],
    when (!e.keyFields.isEmpty) (keyHandlers b e (base ++ item)) ]

/-! ### Shared files

The files that all entities share.
-/

/-- The module that joins the routes of all entities. -/
def routeIndex (b : Blueprint) : List Code := [
  "import \x7b Router \x7d from 'express';",
  each b.entities fun e => [
    s!"import \x7b {e.names.single}Router \x7d from './{e.names.file}.routes';"],
  "",
  "export const api = Router();",
  each b.entities fun e => [s!"api.use({e.names.single}Router);"]]

/-- The module of the application. -/
def appModule (b : Blueprint) : List Code := [
  "import express from 'express';",
  when b.features.auth ["import \x7b requireAuth \x7d from './middleware/auth';"],
  "import \x7b errorHandler \x7d from './middleware/error';",
  when b.features.rateLimit ["import \x7b rateLimiter \x7d from './middleware/rate-limit';"],
  "import \x7b api \x7d from './routes';",
  "",
  "export const app = express();",
  "",
  "app.use(express.json());",
  when b.features.rateLimit ["app.use(rateLimiter);"],
  either b.features.auth ["app.use('/api', requireAuth, api);"] ["app.use('/api', api);"],
  "app.use(errorHandler);"]

/-- The module that starts the server. -/
def serverModule (b : Blueprint) : List Code := [
  "import \x7b app \x7d from './app';",
  "",
  "const port = Number(process.env.PORT ?? 3000);",
  "",
  block "app.listen(port, () =>" [
    "console.log(`" ++ b.project ++ " listening on $\x7bport\x7d`);"] ");"]

/-- The module of the database connections. -/
def databaseModule : List Code := [
  "import \x7b Pool \x7d from 'pg';",
  "",
  "export const pool = new Pool(\x7b connectionString: process.env.DATABASE_URL \x7d);"]

/-- The module that answers requests that failed. -/
def errorModule (b : Blueprint) : List Code := [
  "import \x7b NextFunction, Request, Response \x7d from 'express';",
  when b.features.validation ["import \x7b ZodError \x7d from 'zod';"],
  "",
  block "export class NotFoundError extends Error" [
    block "constructor(entity: string)" ["super(`$\x7bentity\x7d not found`);"]],
  "",
  block ("export function errorHandler(err: unknown, _req: Request, res: Response,"
      ++ " _next: NextFunction)") [
    block "if (err instanceof NotFoundError)" [
      "res.status(404).json(\x7b error: err.message \x7d);",
      "return;"],
    when b.features.validation [
      block "if (err instanceof ZodError)" [
        "res.status(422).json(\x7b error: err.issues \x7d);",
        "return;"]],
    "res.status(500).json(\x7b error: 'internal error' \x7d);"]]

/-- The module of pages. -/
def paginationModule : List Code := [
  block "export interface PageParams" [
    "page: number;",
    "limit: number;",
    "offset: number;"],
  "",
  block "export interface Page<T>" [
    "items: T[];",
    "total: number;",
    "page: number;",
    "perPage: number;"],
  "",
  "const MAX_PER_PAGE = 100;",
  "",
  block "export function pageParams(query: Record<string, unknown>): PageParams" [
    "const page = Math.max(1, Number(query.page ?? 1) || 1);",
    "const limit = Math.min(MAX_PER_PAGE, Math.max(1, Number(query.perPage ?? 20) || 20));",
    "return \x7b page, limit, offset: (page - 1) * limit \x7d;"]]

/-- The module that turns away requests without a valid token. -/
def authModule : List Code := [
  "import \x7b NextFunction, Request, Response \x7d from 'express';",
  "import jwt from 'jsonwebtoken';",
  "",
  block "export function requireAuth(req: Request, res: Response, next: NextFunction)" [
    "const header = req.headers.authorization ?? '';",
    "const token = header.startsWith('Bearer ') ? header.slice(7) : undefined;",
    block "if (!token)" [
      "res.status(401).json(\x7b error: 'unauthorized' \x7d);",
      "return;"],
    blocks [
      ("try", [
        "res.locals.claims = jwt.verify(token, process.env.JWT_SECRET ?? '');",
        "next();"]),
      ("catch", [
        "res.status(401).json(\x7b error: 'unauthorized' \x7d);"])]]]

/-- The module that limits how often requests come. -/
def rateLimitModule : List Code := [
  "import rateLimit from 'express-rate-limit';",
  "",
  call "export const rateLimiter = rateLimit" [
    "windowMs: 60_000,",
    "limit: 120,",
    "standardHeaders: 'draft-7',",
    "legacyHeaders: false,"] ";"]

end CrudGen.TypeScript.Express
