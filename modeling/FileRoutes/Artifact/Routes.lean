import FileRoutes.Artifact.Body
import FileRoutes.Text.Quoted

/-!
# The route table file

`routes.ts` lists the static routes, the matchers of the dynamic routes and the names of their
placeholders, and defines the functions that match, read and build paths with them.
-/

namespace FileRoutes

namespace Artifact

/-! ### Fixed parts -/

/-- What stands between the banner and the list of static routes. -/
def routesOpening : List String :=
  ["",
   "import type \x7b DynamicRoute, Route, RouteParams, StaticRoute \x7d from \"./types\";",
   "",
   "export class MissingParameterError extends Error \x7b",
   "  constructor(",
   "    readonly route: string,",
   "    readonly parameter: string,",
   "  ) \x7b",
   "    super(`Missing parameter \"$\x7bparameter\x7d\" for route \"$\x7broute\x7d\"`);",
   "    this.name = \"MissingParameterError\";",
   "  \x7d",
   "\x7d",
   ""]

/-- The start of the list of static routes. -/
def staticListOpening : Text :=
  "export const staticRoutes: readonly StaticRoute[] = [".toList

/-- The end of the list of static routes and the start of the list of matchers. -/
def matcherListOpening : Text :=
  unlines ["];", ""]
    ++ "export const dynamicRoutes: ReadonlyArray<\x7b readonly pattern: RegExp; readonly route: DynamicRoute \x7d> = [".toList

/-- The end of the list of matchers and the start of the lists of names. -/
def namesListOpening : Text :=
  unlines ["];", ""]
    ++ "export const routeParamNames: \x7b readonly [R in DynamicRoute]: readonly (keyof RouteParams[R] & string)[] \x7d = \x7b".toList

/-- What follows the lists of names. -/
def routesClosing : List String :=
  ["\x7d;",
   "",
   "const PLACEHOLDER = /^\\[([^\\[\\]]+)\\]$/;",
   "",
   "export function matchDynamicRoute(path: string): DynamicRoute | null \x7b",
   "  for (const entry of dynamicRoutes) \x7b",
   "    if (entry.pattern.test(path)) \x7b",
   "      return entry.route;",
   "    \x7d",
   "  \x7d",
   "  return null;",
   "\x7d",
   "",
   "export function extractParams<R extends DynamicRoute>(route: R, path: string): RouteParams[R] | null \x7b",
   "  const entry = dynamicRoutes.find((candidate) => candidate.route === route);",
   "  const match = entry ? entry.pattern.exec(path) : null;",
   "  if (!match) \x7b",
   "    return null;",
   "  \x7d",
   "  const names: readonly string[] = routeParamNames[route];",
   "  const params: Record<string, string> = \x7b\x7d;",
   "  names.forEach((name, index) => \x7b",
   "    params[name] = decodeURIComponent(match[index + 1]);",
   "  \x7d);",
   "  return params as RouteParams[R];",
   "\x7d",
   "",
   "export type BuildPathArgs<R extends Route> = R extends DynamicRoute ? [params: RouteParams[R]] : [];",
   "",
   "export function buildPath<R extends Route>(route: R, ...args: BuildPathArgs<R>): string \x7b",
   "  const params = ((args as readonly unknown[])[0] ?? \x7b\x7d) as Record<string, string>;",
   "  return route",
   "    .split(\"/\")",
   "    .map((segment) => \x7b",
   "      const placeholder = PLACEHOLDER.exec(segment);",
   "      if (!placeholder) \x7b",
   "        return segment;",
   "      \x7d",
   "      const name = placeholder[1];",
   "      if (!Object.prototype.hasOwnProperty.call(params, name)) \x7b",
   "        throw new MissingParameterError(route, name);",
   "      \x7d",
   "      return encodeURIComponent(params[name]);",
   "    \x7d)",
   "    .join(\"/\");",
   "\x7d"]

/-! ### Lists -/

variable {M : Type}

/-- The line of a static route. -/
def staticLine (p : Text) : Text := "  ".toList ++ Quoted.encode p ++ ",".toList

/-- The line of a dynamic route's matcher. -/
def matcherLine (r : DynamicRoute M) : Text :=
  "  \x7b pattern: new RegExp(".toList ++ Quoted.encode r.matchable ++ "), route: ".toList
    ++ Quoted.encode r.pattern ++ " \x7d,".toList

/-- The line of the names of a dynamic route's placeholders. -/
def namesLine (r : DynamicRoute M) : Text :=
  "  ".toList ++ Quoted.encode r.pattern ++ ": [".toList
    ++ joinTexts ", ".toList (r.params.map Quoted.encode) ++ "],".toList

/-- The lines inside a pair of brackets; brackets around nothing stay on their line. -/
def listBody (lines : List Text) : Text :=
  if lines = [] then [] else '\n' :: (joinWith '\n' lines ++ ['\n'])

/-- The text of `routes.ts`. -/
def routes (m : Manifest M) : Text :=
  banner ++ unlines routesOpening
    ++ staticListOpening ++ listBody (m.staticPatterns.map staticLine)
    ++ matcherListOpening ++ listBody (m.dynamics.map matcherLine)
    ++ namesListOpening ++ listBody (m.dynamics.map namesLine)
    ++ unlines routesClosing

end Artifact

end FileRoutes
