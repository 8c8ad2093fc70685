import FileRoutes.Disk.Resolve
import FileRoutes.Text.Utf8

/-!
# What a watcher looks at

A watcher acts on changes below the root, unless they lie in the output directory or in a hidden
directory below the root.  Positions are compared part by part.
-/

namespace FileRoutes

namespace Watch

/-- The part starts with a dot. -/
def isHidden (c : Path.Component) : Bool := c.raw.head? = some 0x2E

/-- A change at `path` is of no interest. -/
def isIgnored (path root out : Path) : Bool :=
  path.startsWith out ||
    match path.below? root with
    | some parts => parts.any isHidden
    | none => true

/-- The innermost directory on the way to a path that is there. -/
def nearestExisting? (d : Disk) (path : Path) : Option Path :=
  path.ancestors.find? fun p => d.hasDirectory p

/-- The absolute path of a place. -/
def pathOfPlace (p : Place) : Path := ⟨Path.slash :: joinWith Path.slash p⟩

/-- The absolute form of a path: with links followed if something stands there, and otherwise as
it is written, from the working directory on. -/
def absolute (d : Disk) (path : Path) : Path :=
  match d.look path with
  | .ok (p, _) => pathOfPlace p
  | .error _ => (pathOfPlace d.home).join path

end Watch

end FileRoutes
