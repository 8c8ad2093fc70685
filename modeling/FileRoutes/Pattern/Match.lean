import FileRoutes.Pattern.Matchable
import FileRoutes.Pattern.Values
import FileRoutes.Text.Percent
import FileRoutes.Error

/-!
# Matching paths

A path matches a pattern when the pattern's expression accepts it.  The captured segments are
percent-decoded and become the values of the placeholders.

* `Pattern.captures?` and `Pattern.isMatch` ask the expression;
* `Pattern.matchPath` reads the values;
* `Pattern.alignSegments?` says the same segment by segment, without an expression.
-/

namespace FileRoutes

namespace Pattern

/-- The path segments that stand at the placeholders, when the path matches. -/
def captures? (p s : Text) : Option (List Text) := Matchable.run (expression p) s

/-- The path matches the pattern. -/
def isMatch (p s : Text) : Bool := (captures? p s).isSome

/-- Read captured segments as values, left to right.  Of values with one name the last one
counts. -/
def readValues (vs : Values) : List (Text × Text) → Except Error Values
  | [] => .ok vs
  | (name, raw) :: es =>
    match Percent.decode? raw with
    | none => .error (.invalidEncoding raw)
    | some value => readValues (vs.insert name value) es

/-- The values of the placeholders in a path, or nothing if the path does not match. -/
def matchPath (p s : Text) : Except Error (Option Values) :=
  match captures? p s with
  | none => .ok none
  | some raws =>
    match readValues [] ((names p).zip raws) with
    | .ok vs => .ok (some vs)
    | .error e => .error e

/-! ### Segment by segment -/

/-- The segments of a path that stand at placeholders, when both lists are equally long, every
literal stands opposite itself and every placeholder opposite a segment that is not empty. -/
def alignSegments? : List Segment → List Text → Option (List Text)
  | [], [] => some []
  | .literal t :: ss, s :: path => if s = t then alignSegments? ss path else none
  | .placeholder _ :: ss, s :: path =>
    if s = [] then none else (alignSegments? ss path).map (s :: ·)
  | _, _ => none

end Pattern

end FileRoutes
