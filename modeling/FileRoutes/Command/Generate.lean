import FileRoutes.Command.Failure

/-!
# Generating

`generate` makes one generation from a configuration, and `report` tells about it.
-/

namespace FileRoutes

namespace Command

/-- One generation. -/
def generate (c : Config) (d : Disk) : Except Failure Summary × Disk :=
  match c.generator with
  | .error e => (.error (.configuration e), d)
  | .ok g =>
    match g.run d with
    | (.ok s, d') => (.ok s, d')
    | (.error e, d') => (.error (.generation c.root e), d')

/-- A line of output. -/
def line (t : Text) : Text := t ++ ['\n']

/-- The decimal digits of a number. -/
def count (n : Nat) : Text := Nat.toDigits 10 n

/-- The line about an artifact. -/
def fileLine (w : WrittenFile) : Text :=
  match w.status with
  | .written => line ("  → ".toList ++ w.path.display)
  | .unchanged => line ("  → ".toList ++ w.path.display ++ " (unchanged)".toList)

/-- The lines about a generation. -/
def report (s : Summary) : Text :=
  line ("  ✓ Found ".toList ++ count s.total ++ " routes (".toList ++ count s.statics
      ++ " static, ".toList ++ count s.dynamics ++ " dynamic)".toList)
    ++ s.files.flatMap fileLine

end Command

end FileRoutes
