import FileRoutes.Route.Manifest
import FileRoutes.Pattern.Match
import FileRoutes.Pattern.Build

/-!
# Route tables

A table answers questions about the routes of a manifest while an application runs: which
dynamic route a path belongs to, what its placeholders stand for, and which path a route has.
Of several dynamic routes that match a path, the first one counts.
-/

namespace FileRoutes

/-- The patterns of the routes, in the order of the manifest. -/
structure RouteTable where
  statics : List Text
  dynamics : List Text
  deriving DecidableEq, Repr

namespace RouteTable

variable {M : Type}

/-- The table of a manifest. -/
def ofManifest (m : Manifest M) : RouteTable := ⟨m.staticPatterns, m.dynamicPatterns⟩

/-- The pattern is a route of the table. -/
def contains (t : RouteTable) (route : Text) : Bool :=
  t.statics.contains route || t.dynamics.contains route

/-- The first dynamic route that matches a path. -/
def match? (t : RouteTable) (path : Text) : Option Text :=
  t.dynamics.find? fun p => Pattern.isMatch p path

/-- The values of the placeholders of a dynamic route in a path. -/
def extract (t : RouteTable) (route path : Text) : Except Error (Option Values) :=
  if t.dynamics.contains route then Pattern.matchPath route path
  else .error (.unknownRoute route)

/-- The path of a route.  Static routes have no use for values. -/
def build (t : RouteTable) (route : Text) (vs : Values) : Except Error Text :=
  if t.contains route then Pattern.build route vs else .error (.unknownRoute route)

end RouteTable

end FileRoutes
