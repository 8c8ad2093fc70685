import FileRoutes.Text.Split

/-!
# Sets of characters given by ranges

Classes of characters are written as lists of ranges of code points, both ends included.
-/

namespace FileRoutes

/-- Code points from the first to the second, both included. -/
abbrev CharRange := Nat × Nat

/-- `c` lies in one of the ranges. -/
def inRanges (rs : List CharRange) (c : Char) : Bool :=
  rs.any fun r => r.1 ≤ c.toNat && c.toNat ≤ r.2

end FileRoutes
