import FileRoutes.Artifact.Body
import FileRoutes.Disk.Change

/-!
# Scaffolds

Files that a new project starts from: a configuration with the standard settings, and two
helpers next to the artifacts.  They belong to the user, so they are created only where nothing
stands.
-/

namespace FileRoutes

namespace Scaffold

/-- The text of a new configuration file. -/
def configTemplate : Text :=
  Artifact.unlines
  ["# routegen.toml",
   "",
   "# Directory scanned for `page.\x7bts,tsx,js,jsx\x7d` files that call defineRoute/createRoute",
   "root_dir = \"app\"",
   "",
   "# Directory the generated types.ts, routes.ts and index.ts are written to",
   "output_dir = \"src/generated/routes\"",
   "",
   "# Glob patterns for directories to skip, matched against the path relative to",
   "# root_dir and against the directory name. Directories starting with `_` are",
   "# always skipped.",
   "# exclude = [\"@*\", \"(*)\"]",
   "exclude = []",
   "",
   "# Route order in the generated table: \"filesystem\", \"alphabetical\" or \"specificity\"",
   "sort = \"specificity\"",
   "",
   "[watch]",
   "debounce_ms = 300"]

/-- The name of the helper that spells links. -/
def buildPathFile : Text := "build-path.ts".toList

/-- The text of the helper that spells links. -/
def buildPathTemplate : Text :=
  Artifact.unlines
  ["// build-path.ts",
   "// Created by `routegen init`. This file is yours: routegen never overwrites it.",
   "",
   "import \x7b buildPath, type BuildPathArgs, type Route \x7d from \"./index\";",
   "",
   "/**",
   " * Type-checked URL for a route. Dynamic routes require every parameter.",
   " *",
   " *   href(\"/about\")",
   " *   href(\"/user/[id]\", \x7b id: \"42\" \x7d)",
   " */",
   "export function href<R extends Route>(route: R, ...args: BuildPathArgs<R>): string \x7b",
   "  return buildPath(route, ...args);",
   "\x7d"]

/-- The name of the helper that pages declare routes with. -/
def defineRouteFile : Text := "define-route.ts".toList

/-- The text of the helper that pages declare routes with. -/
def defineRouteTemplate : Text :=
  Artifact.unlines
  ["// define-route.ts",
   "// Created by `routegen init`. This file is yours: routegen never overwrites it.",
   "//",
   "// A page file becomes a route once it calls defineRoute(...) or createRoute(...).",
   "",
   "import type \x7b DynamicRoute, Route, RouteParams, StaticRoute \x7d from \"./index\";",
   "",
   "export interface RouteDefinition<Meta = unknown> \x7b",
   "  readonly meta?: Meta;",
   "\x7d",
   "",
   "export interface DynamicRouteDefinition<R extends DynamicRoute, Meta = unknown>",
   "  extends RouteDefinition<Meta> \x7b",
   "  readonly route: R;",
   "  readonly parse?: (params: RouteParams[R]) => void;",
   "\x7d",
   "",
   "export function defineRoute<Meta = unknown>(definition: RouteDefinition<Meta> = \x7b\x7d): RouteDefinition<Meta> \x7b",
   "  return definition;",
   "\x7d",
   "",
   "export function createRoute<R extends DynamicRoute, Meta = unknown>(",
   "  definition: DynamicRouteDefinition<R, Meta>,",
   "): DynamicRouteDefinition<R, Meta> \x7b",
   "  return definition;",
   "\x7d",
   "",
   "export type \x7b DynamicRoute, Route, StaticRoute \x7d;"]

/-- The helpers with their texts. -/
def helpers : List (Text × Text) :=
  [(buildPathFile, buildPathTemplate), (defineRouteFile, defineRouteTemplate)]

end Scaffold

/-- What happened to a file of a scaffold. -/
inductive Seeded where
  | created (path : Path)
  /-- Something stood there already. -/
  | kept (path : Path)
  deriving DecidableEq, Repr

/-- A path at which nothing could be created. -/
structure SeedFault where
  path : Path
  fault : Fault
  deriving DecidableEq, Repr

/-- A fault in words, from the outside in. -/
def SeedFault.causes (s : SeedFault) : List Text :=
  ["Failed to create ".toList ++ s.path.display, s.fault.message]

namespace Scaffold

/-- Make the directory that contains a path, if the path has more than one part. -/
def makeParent (d : Disk) (path : Path) : Except SeedFault Unit × Disk :=
  match path.parent? with
  | none => (.ok (), d)
  | some dir =>
    if dir.raw = [] then (.ok (), d)
    else
      match d.makeAll dir with
      | (.ok (), d') => (.ok (), d')
      | (.error f, d') => (.error ⟨dir, f⟩, d')

/-- Create a file unless something stands there, and the directory it lies in. -/
def seed (d : Disk) (path : Path) (content : Text) : Except SeedFault Seeded × Disk :=
  match makeParent d path with
  | (.error e, d') => (.error e, d')
  | (.ok (), d') =>
    match d'.create path (Utf8.encode content) with
    | .ok d'' => (.ok (.created path), d'')
    | .error .alreadyExists => (.ok (.kept path), d')
    | .error f => (.error ⟨path, f⟩, d')

/-- Create the configuration file. -/
def seedConfig (d : Disk) (path : Path) : Except SeedFault Seeded × Disk :=
  seed d path configTemplate

/-- Create files in a directory, up to the first that cannot be created. -/
def seedFiles (out : Path) : List (Text × Text) → Disk → Except SeedFault (List Seeded) × Disk
  | [], d => (.ok [], d)
  | (name, content) :: files, d =>
    match seed d (out.join (.ofText name)) content with
    | (.error e, d') => (.error e, d')
    | (.ok s, d') =>
      match seedFiles out files d' with
      | (.error e, d'') => (.error e, d'')
      | (.ok ss, d'') => (.ok (s :: ss), d'')

/-- Create the helpers in the output directory. -/
def seedHelpers (d : Disk) (out : Path) : Except SeedFault (List Seeded) × Disk :=
  match d.makeAll out with
  | (.error f, d') => (.error ⟨out, f⟩, d')
  | (.ok (), d') => seedFiles out helpers d'

end Scaffold

end FileRoutes
