import CrudGen.Server.TypeScript.Basic

/-!
# Nest servers

The modules of a Nest server: the entities, their repositories, services and controllers, and the
files that all entities share.
-/

namespace CrudGen.TypeScript.Nest

open Code

/-! ### Entities

The class of a row, whose decorators say how members are stored and how entities are related.
-/

/-- How the member of a field is stored. -/
def columnDecorator (f : Field) : String :=
  let name := "name: " ++ literal f.column
  if f.primaryKey && f.autoIncrement then s!"@PrimaryGeneratedColumn(\x7b {name} \x7d)"
  else if f.primaryKey then s!"@PrimaryColumn(\x7b {name} \x7d)"
  else
    let length :=
      match f.type.length, f.sqlType.isTextual with
      | some n, true => [s!"length: {n}"]
      | _, _ => []
    let options :=
      [name] ++ (if f.type.nullable then ["nullable: true"] else [])
        ++ (if f.unique then ["unique: true"] else []) ++ length
    "@Column(\x7b " ++ ", ".intercalate options ++ " \x7d)"

/-- Columns with the members that they refer to. -/
def joinColumns (columns targets : List String) : String :=
  let pair (c t : String) : String :=
    "\x7b name: " ++ literal c ++ ", referencedColumnName: " ++ literal (Casing.toCamel t)
      ++ " \x7d"
  "[" ++ ", ".intercalate (columns.zipWith pair targets) ++ "]"

/-- The member that a relation is at its other end. -/
def backName (b : Blueprint) (e : Entity) (r : Relation) : String :=
  ((b.counterpart? e r).map (·.name)).getD e.names.collection

/-- How the member of a relation is related. -/
def relationDecorators (b : Blueprint) (e : Entity) (r : Relation) : List String :=
  let target := s!"() => {r.targetEntity}"
  let both := s!"({target}, (other) => other." ++ backName b e r ++ ")"
  let join := "@JoinColumn(" ++ joinColumns r.localColumns r.remoteColumns ++ ")"
  match r.kind, r.inverse, r.via with
  | .manyToOne, _, _ => [s!"@ManyToOne({target})", join]
  | .oneToMany, _, _ => ["@OneToMany" ++ both]
  | .oneToOne, false, _ => ["@OneToOne" ++ both, join]
  | .oneToOne, true, _ => ["@OneToOne" ++ both]
  | .manyToMany, false, some junction =>
    [ "@ManyToMany" ++ both,
      "@JoinTable(\x7b name: " ++ literal junction.table
        ++ ", joinColumns: " ++ joinColumns junction.localColumns r.localColumns
        ++ ", inverseJoinColumns: " ++ joinColumns junction.remoteColumns r.remoteColumns
        ++ " \x7d)" ]
  | .manyToMany, _, _ => ["@ManyToMany" ++ both]

/-- The decorators that a relation needs. -/
def relationImports (r : Relation) : List String :=
  match r.kind, r.inverse with
  | .manyToOne, _ => ["ManyToOne", "JoinColumn"]
  | .oneToMany, _ => ["OneToMany"]
  | .oneToOne, false => ["OneToOne", "JoinColumn"]
  | .oneToOne, true => ["OneToOne"]
  | .manyToMany, false => ["ManyToMany", "JoinTable"]
  | .manyToMany, true => ["ManyToMany"]

/-- What an entity needs from the library of decorators, in ascending order. -/
def decoratorImports (e : Entity) : List String :=
  let need (name : String) (condition : Field → Bool) : List String :=
    if e.fields.any condition then [name] else []
  ascending (["Entity"]
    ++ need "PrimaryGeneratedColumn" (fun f => f.primaryKey && f.autoIncrement)
    ++ need "PrimaryColumn" (fun f => f.primaryKey && !f.autoIncrement)
    ++ need "Column" (fun f => !f.primaryKey)
    ++ e.relations.flatMap relationImports
    ++ (if e.relations.any (·.deferred) then ["Relation"] else []))

/-- The member of a relation. A type that may not be there yet is wrapped. -/
def relationMember (b : Blueprint) (e : Entity) (r : Relation) : List Code :=
  let type := if r.deferred then "Relation<" ++ relationType r ++ ">" else relationType r
  [ ofLines (relationDecorators b e r),
    s!"{r.name}?: {type};" ]

/-- The module of an entity. -/
def entityModule (b : Blueprint) (e : Entity) : List Code := [
  "import \x7b " ++ ", ".intercalate (decoratorImports e) ++ " \x7d from 'typeorm';",
  each e.neighbours fun (file, entity) => [
    s!"import \x7b {entity} \x7d from '../{file}/{file}.entity';"],
  "",
  "@Entity(\x7b name: " ++ literal e.table.name ++ " \x7d)",
  block s!"export class {e.names.entity}" [
    each e.fields fun f => [
      columnDecorator f,
      s!"{f.name}!: {f.type.name};",
      ""],
    spaced (e.relations.map (relationMember b e))]]

/-! ### Inputs

The classes that rows are created and changed with, whose decorators say what values are checked
for.
-/

/-- What the values of a type are checked for. -/
def typeChecks (f : Field) : List String :=
  match f.type.inner with
  | "number" => if f.sqlType.isInteger then ["IsInt()"] else ["IsNumber()"]
  | "boolean" => ["IsBoolean()"]
  | "Date" => ["IsDate()"]
  | "string" => if f.sqlType == .uuid then ["IsUUID()"] else ["IsString()"]
  | _ => []

/-- What an input is checked for. -/
def checks (f : Field) : List String :=
  (if f.isRequiredInput then [] else ["IsOptional()"]) ++ typeChecks f
    ++ (match f.type.length, f.sqlType.isTextual with
      | some max, true => [s!"MaxLength({max})"]
      | _, _ => [])

/-- The name of a check without its arguments. -/
def checkName (check : String) : String :=
  String.ofList (check.toList.takeWhile (· != '('))

/-- The member of an input. -/
def inputMember (validation : Bool) (f : Field) : List Code := [
  when validation [
    when (f.type.inner == "Date") ["@Type(() => Date)"],
    each (checks f) fun check => [s!"@{check}"]],
  f.name ++ (if f.isRequiredInput then "!" else "?") ++ s!": {f.type.name};"]

/-- The module of the inputs. -/
def inputModule (b : Blueprint) (e : Entity) : List Code :=
  let name := e.names.entity
  let validation := b.features.validation
  let used := ascending ((e.inputFields.flatMap checks).map checkName)
  [ "import \x7b PartialType \x7d from '@nestjs/mapped-types';",
    when validation [
      when (e.inputFields.any (·.type.inner == "Date")) [
        "import \x7b Type \x7d from 'class-transformer';"],
      when (!used.isEmpty) [
        "import \x7b " ++ ", ".intercalate used ++ " \x7d from 'class-validator';"]],
    "",
    block s!"export class Create{name}Dto" [each e.inputFields (inputMember validation)],
    "",
    s!"export class Update{name}Dto extends PartialType(Create{name}Dto) \x7b\x7d" ]

/-! ### Repositories

A repository finds, stores and removes the rows of an entity.
-/

/-- The methods that list rows. `live` is the condition that rows are not marked as deleted. -/
def listMethods (e : Entity) (live : String) : List Code :=
  let name := e.names.entity
  let loaded := (e.relations.filter (!·.deferred)).map fun r => literal r.name
  [ block s!"findPage(skip: number, take: number): Promise<[{name}[], number]>" [
      s!"return this.rows.findAndCount(\x7b where: {live}, skip, take, relations: ["
        ++ ", ".intercalate loaded ++ "] \x7d);"],
    "",
    block s!"findAll(): Promise<{name}[]>" [
      s!"return this.rows.find(\x7b where: {live} \x7d);"] ]

/-- The methods for rows that are addressed by a key. A row with a `marker` is marked as deleted in
place of being deleted. -/
def keyMethods (e : Entity) (marker : Option Field) (live : String) : List Code :=
  let key := keyArgs e
  let condition := if marker.isSome then s!"\x7b {key}, ...{live} \x7d" else s!"\x7b {key} \x7d"
  [ "",
    block ("findOne(" ++ keyParams e ++ s!"): Promise<{e.names.entity} | null>") [
      s!"return this.rows.findOne(\x7b where: {condition} \x7d);"],
    "",
    block ("async remove(" ++ keyParams e ++ "): Promise<boolean>") [
      match marker with
      | some f =>
        s!"const result = await this.rows.update(\x7b {key} \x7d, \x7b {f.name}: new Date() \x7d);"
      | none => s!"const result = await this.rows.delete(\x7b {key} \x7d);",
      "return (result.affected ?? 0) > 0;"] ]

/-- The module of a repository. -/
def repositoryModule (b : Blueprint) (e : Entity) : List Code :=
  let name := e.names.entity
  let marker := if b.features.softDelete then e.softDeleteField? else none
  let live := match marker with
    | some f => s!"\x7b {f.name}: IsNull() \x7d"
    | none => "\x7b\x7d"
  [ "import \x7b Injectable \x7d from '@nestjs/common';",
    "import \x7b InjectRepository \x7d from '@nestjs/typeorm';",
    "import \x7b IsNull, Repository \x7d from 'typeorm';",
    s!"import \x7b {name} \x7d from './{e.names.file}.entity';",
    "",
    "@Injectable()",
    block s!"export class {name}Repository" [
      "constructor(",
      s!"  @InjectRepository({name}) private readonly rows: Repository<{name}>,",
      ") \x7b\x7d",
      "",
      all (listMethods e live),
      when (!e.keyFields.isEmpty) (keyMethods e marker live),
      "",
      block s!"save(row: Partial<{name}>): Promise<{name}>" [
        "return this.rows.save(this.rows.create(row));"]] ]

/-! ### Services

A service stands between a controller and a repository. It reports rows that are not there.
-/

/-- Reports that there is no row. -/
def notFound (e : Entity) : String :=
  "throw new NotFoundException(" ++ literal s!"{e.names.entity} not found" ++ ");"

/-- The method that lists rows. -/
def listMethod (b : Blueprint) (e : Entity) : Code :=
  let name := e.names.entity
  if b.features.pagination then
    block s!"async list(query: PageQuery): Promise<Page<{name}>>" [
      "const [items, total] = await this.repository.findPage(query.skip, query.take);",
      "return \x7b items, total, page: query.page, perPage: query.take \x7d;"]
  else
    block s!"list(): Promise<{name}[]>" ["return this.repository.findAll();"]

/-- The methods for rows that are addressed by a key. -/
def keyServices (e : Entity) : List Code :=
  let name := e.names.entity
  let params := keyParams e
  let args := keyArgs e
  [ "",
    block s!"async get({params}): Promise<{name}>" [
      s!"const row = await this.repository.findOne({args});",
      "if (!row) " ++ notFound e,
      "return row;"],
    "",
    block s!"async update({params}, input: Update{name}Dto): Promise<{name}>" [
      s!"const row = await this.get({args});",
      "return this.repository.save(\x7b ...row, ...input \x7d);"],
    "",
    block s!"async remove({params}): Promise<void>" [
      block s!"if (!(await this.repository.remove({args})))" [notFound e]] ]

/-- The module of a service. -/
def serviceModule (b : Blueprint) (e : Entity) : List Code :=
  let name := e.names.entity
  let file := e.names.file
  [ "import \x7b Injectable, NotFoundException \x7d from '@nestjs/common';",
    when b.features.pagination ["import \x7b Page, PageQuery \x7d from '../common/pagination';"],
    s!"import \x7b Create{name}Dto, Update{name}Dto \x7d from './dto/{file}.dto';",
    s!"import \x7b {name} \x7d from './{file}.entity';",
    s!"import \x7b {name}Repository \x7d from './{file}.repository';",
    "",
    "@Injectable()",
    block s!"export class {name}Service" [
      s!"constructor(private readonly repository: {name}Repository) \x7b\x7d",
      "",
      listMethod b e,
      "",
      block s!"create(input: Create{name}Dto): Promise<{name}>" [
        "return this.repository.save(input);"],
      when (!e.keyFields.isEmpty) (keyServices e)] ]

/-! ### Controllers

A controller has the handlers of an entity, and a module makes an entity known to the application.
-/

/-- What a controller needs from the framework, in ascending order. -/
def controllerImports (b : Blueprint) (e : Entity) : List String :=
  let f := b.features
  ascending (["Body", "Controller", "Get", "Post"]
    ++ (if e.keyFields.isEmpty then [] else ["Delete", "HttpCode", "Param", "Put"])
    ++ (if f.pagination then ["Query"] else [])
    ++ (if f.auth then ["UseGuards"] else [])
    ++ (if f.caching then ["UseInterceptors"] else []))

/-- The handlers of rows that are addressed by a key. -/
def keyHandlers (e : Entity) : List Code :=
  let path := literal ("/".intercalate (e.keyFields.map fun f => s!":{f.name}"))
  let params := ", ".intercalate (e.keyFields.map fun f =>
    "@Param(" ++ literal f.name ++ s!") {f.name}: string")
  let args := ", ".intercalate (e.keyFields.map fun f => parsed f f.name)
  [ "",
    s!"@Get({path})",
    block s!"get({params})" [s!"return this.service.get({args});"],
    "",
    s!"@Put({path})",
    block s!"update({params}, @Body() input: Update{e.names.entity}Dto)" [
      s!"return this.service.update({args}, input);"],
    "",
    s!"@Delete({path})",
    "@HttpCode(204)",
    block s!"remove({params})" [s!"return this.service.remove({args});"] ]

/-- The module of a controller. -/
def controllerModule (b : Blueprint) (e : Entity) : List Code :=
  let name := e.names.entity
  let file := e.names.file
  let f := b.features
  [ "import \x7b " ++ ", ".intercalate (controllerImports b e) ++ " \x7d from '@nestjs/common';",
    when f.caching ["import \x7b CacheInterceptor \x7d from '@nestjs/cache-manager';"],
    when f.auth ["import \x7b JwtGuard \x7d from '../common/jwt.guard';"],
    when f.pagination ["import \x7b PageQuery \x7d from '../common/pagination';"],
    s!"import \x7b Create{name}Dto, Update{name}Dto \x7d from './dto/{file}.dto';",
    s!"import \x7b {name}Service \x7d from './{file}.service';",
    "",
    "@Controller(" ++ literal e.names.route ++ ")",
    when f.auth ["@UseGuards(JwtGuard)"],
    when f.caching ["@UseInterceptors(CacheInterceptor)"],
    block s!"export class {name}Controller" [
      s!"constructor(private readonly service: {name}Service) \x7b\x7d",
      "",
      "@Get()",
      if f.pagination then
        block "list(@Query() query: PageQuery)" ["return this.service.list(query);"]
      else
        block "list()" ["return this.service.list();"],
      "",
      "@Post()",
      block s!"create(@Body() input: Create{name}Dto)" ["return this.service.create(input);"],
      when (!e.keyFields.isEmpty) (keyHandlers e)] ]

/-- The module that makes an entity known to the application. -/
def moduleModule (e : Entity) : List Code :=
  let name := e.names.entity
  let file := e.names.file
  [ "import \x7b Module \x7d from '@nestjs/common';",
    "import \x7b TypeOrmModule \x7d from '@nestjs/typeorm';",
    s!"import \x7b {name}Controller \x7d from './{file}.controller';",
    s!"import \x7b {name} \x7d from './{file}.entity';",
    s!"import \x7b {name}Repository \x7d from './{file}.repository';",
    s!"import \x7b {name}Service \x7d from './{file}.service';",
    "",
    call "@Module" [
      s!"imports: [TypeOrmModule.forFeature([{name}])],",
      s!"controllers: [{name}Controller],",
      s!"providers: [{name}Repository, {name}Service],",
      s!"exports: [{name}Service],"],
    s!"export class {name}Module \x7b\x7d" ]

/-! ### Shared files

The files that all entities share.
-/

/-- The module of the application. -/
def appModule (b : Blueprint) : List Code := [
  "import \x7b Module \x7d from '@nestjs/common';",
  when b.features.caching ["import \x7b CacheModule \x7d from '@nestjs/cache-manager';"],
  when b.features.rateLimit [
    "import \x7b APP_GUARD \x7d from '@nestjs/core';",
    "import \x7b ThrottlerGuard, ThrottlerModule \x7d from '@nestjs/throttler';"],
  "import \x7b TypeOrmModule \x7d from '@nestjs/typeorm';",
  each b.entities fun e => [
    s!"import \x7b {e.names.entity}Module \x7d from './{e.names.file}/{e.names.file}.module';"],
  "",
  call "@Module" [
    "imports: [",
    indent "  " [
      call "TypeOrmModule.forRoot" [
        "type: 'postgres',",
        "url: process.env.DATABASE_URL,",
        "autoLoadEntities: true,"] ",",
      when b.features.caching ["CacheModule.register(\x7b ttl: 60_000 \x7d),"],
      when b.features.rateLimit ["ThrottlerModule.forRoot([\x7b ttl: 60_000, limit: 120 \x7d]),"],
      each b.entities fun e => [s!"{e.names.entity}Module,"]],
    "],",
    when b.features.rateLimit [
      "providers: [\x7b provide: APP_GUARD, useClass: ThrottlerGuard \x7d],"]],
  "export class AppModule \x7b\x7d"]

/-- The module that starts the server. -/
def mainModule (b : Blueprint) : List Code := [
  when b.features.validation ["import \x7b ValidationPipe \x7d from '@nestjs/common';"],
  "import \x7b NestFactory \x7d from '@nestjs/core';",
  "import \x7b AppModule \x7d from './app.module';",
  "",
  block "async function bootstrap()" [
    "const app = await NestFactory.create(AppModule);",
    "app.setGlobalPrefix('api');",
    when b.features.validation [
      "app.useGlobalPipes(new ValidationPipe(\x7b whitelist: true, transform: true \x7d));"],
    "await app.listen(process.env.PORT ?? 3000);"],
  "",
  "void bootstrap();"]

/-- The module of pages. -/
def paginationModule : List Code := [
  "import \x7b Type \x7d from 'class-transformer';",
  "import \x7b IsInt, IsOptional, Max, Min \x7d from 'class-validator';",
  "",
  block "export class PageQuery" [
    "@IsOptional()",
    "@Type(() => Number)",
    "@IsInt()",
    "@Min(1)",
    "page = 1;",
    "",
    "@IsOptional()",
    "@Type(() => Number)",
    "@IsInt()",
    "@Min(1)",
    "@Max(100)",
    "perPage = 20;",
    "",
    block "get take(): number" ["return this.perPage;"],
    "",
    block "get skip(): number" ["return (this.page - 1) * this.perPage;"]],
  "",
  block "export interface Page<T>" [
    "items: T[];",
    "total: number;",
    "page: number;",
    "perPage: number;"]]

/-- The module that turns away requests without a valid token. -/
def guardModule : List Code := [
  "import \x7b CanActivate, ExecutionContext, Injectable, UnauthorizedException \x7d"
    ++ " from '@nestjs/common';",
  "import \x7b verify \x7d from 'jsonwebtoken';",
  "",
  "@Injectable()",
  block "export class JwtGuard implements CanActivate" [
    block "canActivate(context: ExecutionContext): boolean" [
      "const request = context.switchToHttp().getRequest();",
      "const header: string = request.headers.authorization ?? '';",
      "if (!header.startsWith('Bearer ')) throw new UnauthorizedException();",
      blocks [
        ("try", [
          "request.user = verify(header.slice(7), process.env.JWT_SECRET ?? '');",
          "return true;"]),
        ("catch", ["throw new UnauthorizedException();"])]]]]

end CrudGen.TypeScript.Nest
