import FileRoutes.Path.Basic
import FileRoutes.Pattern.Segment

/-!
# Route records

A record is a page that declares a route: the file it was found in, and the pattern of the
route.  The payload `extra` belongs to the caller; nothing here looks at it except through
functions that the caller gives.
-/

namespace FileRoutes

/-- A route and the page that declares it. -/
structure Record (M : Type) where
  /-- The page file. -/
  source : Path
  /-- The route's pattern, such as `/user/[id]`. -/
  pattern : Text
  /-- The caller's payload. -/
  extra : M
  deriving DecidableEq, Repr

namespace Record

variable {M N : Type}

/-- The names of the placeholders, left to right. -/
def params (r : Record M) : List Text := Pattern.names r.pattern

/-- The route has a placeholder. -/
def isDynamic (r : Record M) : Bool := Pattern.isDynamic r.pattern

/-- The number of segments that are not empty. -/
def depth (r : Record M) : Nat := Pattern.depth r.pattern

/-- The record with another payload. -/
def withExtra (r : Record M) (extra : N) : Record N := ⟨r.source, r.pattern, extra⟩

section Extra

variable (r : Record M) (extra : N)

@[simp] theorem pattern_withExtra : (r.withExtra extra).pattern = r.pattern := rfl

@[simp] theorem extra_withExtra : (r.withExtra extra).extra = extra := rfl

@[simp] theorem params_withExtra : (r.withExtra extra).params = r.params := rfl

@[simp] theorem isDynamic_withExtra : (r.withExtra extra).isDynamic = r.isDynamic := rfl

end Extra

end Record

end FileRoutes
