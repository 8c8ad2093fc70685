import FileRoutes.Route.Record
import FileRoutes.Pattern.Matchable

/-!
# Manifests

A manifest is what is rendered: the routes without placeholders and those with placeholders,
each in the order of the records.  A pattern that occurs again adds nothing, so its first
record gives the place and the payload.
-/

namespace FileRoutes

/-- A route without placeholders. -/
structure StaticRoute (M : Type) where
  pattern : Text
  extra : M
  deriving DecidableEq, Repr

/-- A route with placeholders. -/
structure DynamicRoute (M : Type) where
  pattern : Text
  /-- The matchable form of the pattern. -/
  matchable : Text
  /-- The names of the placeholders, one for each capturing group. -/
  params : List Text
  extra : M
  deriving DecidableEq, Repr

/-- Routes, static and dynamic ones apart. -/
structure Manifest (M : Type) where
  statics : List (StaticRoute M)
  dynamics : List (DynamicRoute M)
  deriving DecidableEq, Repr

namespace Manifest

variable {M : Type}

/-- No routes. -/
def empty : Manifest M := ⟨[], []⟩

/-- The patterns of the static routes. -/
def staticPatterns (m : Manifest M) : List Text := m.statics.map StaticRoute.pattern

/-- The patterns of the dynamic routes. -/
def dynamicPatterns (m : Manifest M) : List Text := m.dynamics.map DynamicRoute.pattern

/-- The pattern is one of the routes. -/
def contains (m : Manifest M) (p : Text) : Bool :=
  m.staticPatterns.contains p || m.dynamicPatterns.contains p

/-- The number of routes. -/
def size (m : Manifest M) : Nat := m.statics.length + m.dynamics.length

/-- Add the route of a record at the end, unless its pattern is there already. -/
def add (m : Manifest M) (r : Record M) : Manifest M :=
  if m.contains r.pattern then m
  else if r.isDynamic then
    { m with
      dynamics := m.dynamics ++ [⟨r.pattern, Pattern.matchable r.pattern, r.params, r.extra⟩] }
  else { m with statics := m.statics ++ [⟨r.pattern, r.extra⟩] }

/-- The routes of some records. -/
def ofRecords (rs : List (Record M)) : Manifest M := rs.foldl add empty

end Manifest

end FileRoutes
