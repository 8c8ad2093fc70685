import FileRoutes.Generator
import FileRoutes.Glob.Exclusion

/-!
# Configurations

A configuration says what to scan, where to write, which directories to leave out, how to order
the routes, and how long a watcher waits for changes to settle.
-/

namespace FileRoutes

/-- The settings of a project. -/
structure Config where
  root : Path
  out : Path
  /-- The globs of directories to leave out. -/
  exclude : List Text
  sort : SortOrder
  /-- The time without changes before a watcher acts, in milliseconds. -/
  debounce : Nat
  deriving DecidableEq, Repr

namespace Config

/-- The settings of a project that says nothing. -/
def standard : Config :=
  ⟨.ofText "app".toList, .ofText "src/generated/routes".toList, [], .filesystem, 300⟩

variable (c : Config)

/-- The settings with other directories, where some are given. -/
def withOverrides (root? out? : Option Path) : Config :=
  { c with root := root?.getD c.root, out := out?.getD c.out }

/-- The directories to leave out, by their paths below the root. -/
def exclusion : Except Error (Path → Bool) :=
  match compileGlobs c.exclude with
  | .ok gs => .ok (excludes gs)
  | .error g => .error (.invalidGlob g)

/-- The generator of a project. -/
def generator : Except Error (Generator Unit) :=
  match c.exclusion with
  | .ok exclude => .ok ⟨c.root, c.out, exclude, fun _ => (), c.sort.comparator?⟩
  | .error e => .error e

end Config

end FileRoutes
