import FileRoutes.Command.Arguments
import FileRoutes.Command.Generate
import FileRoutes.Config.Reading

/-!
# Running commands

A command reads the configuration, changes the disk and writes lines of output.  A configuration
that is of no use is reported and replaced by the standard one; it never stops a command.
-/

namespace FileRoutes

namespace Command

/-- Where the parts of a project are, as far as the command line says.  Paths are byte strings, so
these may be locations that no text spells. -/
structure Locations where
  root? : Option Path
  out? : Option Path
  config : Path
  deriving DecidableEq, Repr

/-- The locations that a command line gives. -/
def Locations.ofArguments (a : Arguments) : Locations :=
  ⟨a.root?.map .ofText, a.out?.map .ofText, .ofText a.config⟩

/-- What a command leaves behind. -/
structure Outcome where
  result : Except Failure Unit
  output : Text
  disk : Disk

/-- The line about a configuration that is of no use.  If the file is not a document at all, it ends
in the words that stand for every such fault (`ConfigFault.message`). -/
def configLine (e : Error) : Text :=
  line ("  ⚠ ".toList ++ e.message ++ " (using defaults)".toList)

/-- The configuration of a project, with the command line's locations in place of the file's, and
the lines about it. -/
def resolveConfig (d : Disk) (l : Locations) : Config × Text :=
  match Config.load d l.config with
  | .ok c => (c.withOverrides l.root? l.out?, [])
  | .error e => (Config.standard.withOverrides l.root? l.out?, configLine e)

/-- Generate, and tell about it. -/
def runGenerate (c : Config) (d : Disk) : Outcome :=
  let opening := line "Generating route helpers...".toList ++ line []
  match generate c d with
  | (.ok s, d') => ⟨.ok (), opening ++ report s, d'⟩
  | (.error f, d') => ⟨.error f, opening, d'⟩

/-- The line about a file of a scaffold. -/
def seededLine : Seeded → Text
  | .created p => line ("  ✓ Created ".toList ++ p.display)
  | .kept p => line ("  ℹ Kept existing ".toList ++ p.display)

/-- What is said at the end of setting up a project. -/
def closing : Text :=
  Artifact.unlines
    ["",
     "Routes initialized!",
     "",
     "Next steps:",
     "  Call defineRoute() or createRoute() in each page file",
     "  routegen watch"]

/-- Set up a project: create what is missing, and generate. -/
def runInit (l : Locations) (d : Disk) : Outcome :=
  let opening := line "Initializing routegen...".toList ++ line []
  match Scaffold.seedConfig d l.config with
  | (.error s, d') => ⟨.error (.configFile s), opening, d'⟩
  | (.ok s, d') =>
    let (c, about) := resolveConfig d' l
    let soFar := opening ++ seededLine s ++ about
    match Scaffold.seedHelpers d' c.out with
    | (.error s, d'') => ⟨.error (.helperFiles s), soFar, d''⟩
    | (.ok ss, d'') =>
      let o := runGenerate c d''
      let soFar := soFar ++ ss.flatMap seededLine ++ line [] ++ o.output
      match o.result with
      | .error f => ⟨.error f, soFar, o.disk⟩
      | .ok () => ⟨.ok (), soFar ++ closing, o.disk⟩

/-- Run a command at some locations; without one, generate.  Watching starts with a generation. -/
def runAt (name? : Option CommandName) (l : Locations) (d : Disk) : Outcome :=
  match name? with
  | some .init => runInit l d
  | _ =>
    let (c, about) := resolveConfig d l
    let o := runGenerate c d
    { o with output := about ++ o.output }

/-- Run what a command line asks for. -/
def run (a : Arguments) (d : Disk) : Outcome := runAt a.command? (.ofArguments a) d

end Command

end FileRoutes
