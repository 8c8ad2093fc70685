import FileRoutes.Config.Basic
import FileRoutes.Scaffold

/-!
# Failures of commands
-/

namespace FileRoutes

/-- A reason for a command to fail. -/
inductive Failure where
  /-- The configuration file cannot be created. -/
  | configFile (s : SeedFault)
  /-- The helpers cannot be created. -/
  | helperFiles (s : SeedFault)
  /-- The configuration is of no use. -/
  | configuration (e : Error)
  /-- The generation from a root directory fails. -/
  | generation (root : Path) (e : Error)
  deriving DecidableEq, Repr

namespace Failure

/-- A failure in words, from the outside in. -/
def causes : Failure → List Text
  | .configFile s => "Failed to create config file".toList :: s.causes
  | .helperFiles s => "Failed to create helper files".toList :: s.causes
  | .configuration e => "Invalid configuration".toList :: e.causes
  | .generation root e => ("Failed to generate routes from ".toList ++ root.display) :: e.causes

/-- A failure on one line. -/
def message (f : Failure) : Text := Artifact.joinTexts ": ".toList f.causes

end Failure

end FileRoutes
