import FileRoutes.Pattern.Values
import FileRoutes.Pattern.Segment
import FileRoutes.Text.Percent
import FileRoutes.Error

/-!
# Building paths

`Pattern.build` fills the placeholders of a pattern with percent-encoded values; literal
segments stay as they are.  It fails exactly when a placeholder has no value, and then names
the leftmost one.
-/

namespace FileRoutes

namespace Pattern

/-- The path segments for some segments of the pattern `p`. -/
def fill (p : Text) (vs : Values) : List Segment → Except Error (List Text)
  | [] => .ok []
  | .literal t :: ss =>
    match fill p vs ss with
    | .ok r => .ok (t :: r)
    | .error e => .error e
  | .placeholder name :: ss =>
    match vs.get? name with
    | none => .error (.missingParameter p name)
    | some v =>
      match fill p vs ss with
      | .ok r => .ok (Percent.encode v :: r)
      | .error e => .error e

/-- The path of a pattern whose placeholders have the given values. -/
def build (p : Text) (vs : Values) : Except Error Text :=
  match fill p vs (segments p) with
  | .ok r => .ok (joinWith '/' r)
  | .error e => .error e

end Pattern

end FileRoutes
