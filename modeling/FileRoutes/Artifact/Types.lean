import FileRoutes.Artifact.Body
import FileRoutes.Text.Quoted

/-!
# The types file

`types.ts` declares the union of the static routes, the union of the dynamic routes, and the
parameters of each dynamic route.
-/

namespace FileRoutes

namespace Artifact

variable {M : Type}

/-- The line of one member of a union. -/
def memberLine (p : Text) : Text := "  | ".toList ++ Quoted.encode p

/-- The declaration of a union of literals. -/
def union (name : String) (members : List Text) : Text :=
  if members = [] then "export type ".toList ++ name.toList ++ " = never;\n".toList
  else
    "export type ".toList ++ name.toList ++ " =\n".toList
      ++ joinWith '\n' (members.map memberLine) ++ ";\n".toList

/-- The elements of a list, each where it occurs first. -/
def firstOccurrences : List Text → List Text
  | [] => []
  | x :: l => x :: (firstOccurrences l).filter fun y => y ≠ x

/-- The type of one parameter. -/
def fieldType (name : Text) : Text := Quoted.encode name ++ ": string".toList

/-- The line of the parameters of a dynamic route.  A type has each field once, also when the
pattern repeats a name. -/
def paramsLine (r : DynamicRoute M) : Text :=
  "  ".toList ++ Quoted.encode r.pattern ++ ": \x7b ".toList
    ++ joinTexts "; ".toList ((firstOccurrences r.params).map fieldType) ++ " \x7d;".toList

/-- The declaration of the parameters of all dynamic routes. -/
def paramsInterface (rs : List (DynamicRoute M)) : Text :=
  if rs = [] then "export interface RouteParams \x7b\x7d\n".toList
  else
    "export interface RouteParams \x7b\n".toList ++ joinWith '\n' (rs.map paramsLine)
      ++ "\n\x7d\n".toList

/-- The text of `types.ts`. -/
def types (m : Manifest M) : Text :=
  joinWith '\n'
    [banner, union "StaticRoute" m.staticPatterns, union "DynamicRoute" m.dynamicPatterns,
      "export type Route = StaticRoute | DynamicRoute;\n".toList, paramsInterface m.dynamics]

end Artifact

end FileRoutes
