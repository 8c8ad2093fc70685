import FileRoutes.Command.Run
import FileRoutes.Watch.Filter
import FileRoutes.Watch.Regenerate

/-!
# The program

The outer layer: it copies the part of the file system that a command looks at into a `Disk`,
runs the command on it, and writes back what the command changed.
-/

namespace FileRoutes

namespace Main

/-! ### From the file system to a disk -/

/-- A text as the system's strings spell it. -/
def spell (t : Text) : String := String.ofList t

/-- The place that an absolute path names when no link is followed. -/
def placeOf (p : Path) : Place :=
  p.components.foldl
    (fun place c =>
      match c with
      | .name n => place ++ [n]
      | .parent => place.dropLast
      | .root | .current => place)
    []

/-- The answer of a request, or another one if it fails. -/
def orElse {α : Type} (request : IO α) (other : α) : IO α := do
  match ← request.toBaseIO with
  | .ok a => return a
  | .error _ => return other

/-- A path at which nothing can stand, for links that lead nowhere. -/
def nowhere : Path := .ofText "/dev/null/nowhere".toList

/-- What stands at a place.  What cannot be read counts as locked. -/
def nodeAt? (p : Place) : IO (Option Node) := do
  let file := (← IO.currentDir) / spell (Watch.pathOfPlace p).display
  match ← file.symlinkMetadata.toBaseIO with
  | .error _ => return none
  | .ok data =>
    match data.type with
    | .dir =>
      let isOpen ← orElse (do let _ ← file.readDir; return true) false
      return some ⟨.directory, !isOpen⟩
    | .symlink =>
      let target ← orElse (do return .ofText (← IO.FS.realPath file).toString.toList) nowhere
      return some ⟨.link target, false⟩
    | _ =>
      let content? ← orElse (do return some (← IO.FS.readBinFile file)) none
      match content? with
      | some content => return some ⟨.file content.toList, false⟩
      | none => return some ⟨.file [], true⟩

/-- Copy the nodes on the way to a place, and on the ways that links open. -/
partial def copyWay (d : Disk) (before after : Place) : IO Disk := do
  match after with
  | [] => return d
  | n :: rest =>
    let here := before ++ [n]
    match d.node? here with
    | some _ => copyWay d here rest
    | none =>
      match ← nodeAt? here with
      | none => return d
      | some node =>
        let d := d.put here node
        match node.entry with
        | .link target => copyWay d [] (placeOf target ++ rest)
        | _ => copyWay d here rest

/-- Copy the nodes below a place. -/
partial def copyBelow (d : Disk) (p : Place) : IO Disk := do
  let dir := (← IO.currentDir) / spell (Watch.pathOfPlace p).display
  let mut d := d
  let entries ← orElse dir.readDir #[]
  for entry in entries do
    let here := p ++ [Utf8.encode entry.fileName.toList]
    match ← nodeAt? here with
    | none => pure ()
    | some node =>
      d := d.put here node
      if node.isDirectory && !node.locked then d ← copyBelow d here
  return d

/-- An empty disk with the program's working directory. -/
def emptyDisk : IO Disk := do
  return ⟨[], placeOf (.ofText (← IO.currentDir).toString.toList)⟩

/-- Copy the nodes on the way to a path. -/
def copyPath (d : Disk) (p : Path) : IO Disk :=
  copyWay d [] (placeOf ((Watch.pathOfPlace d.home).join p))

/-- Copy what a generation looks at. -/
def copyProject (d : Disk) (c : Config) : IO Disk := do
  let mut d ← copyPath d c.root
  match d.scanStart? c.root with
  | some (p, _) => d ← copyBelow d p
  | none => pure ()
  let names := [Artifacts.typesFile, Artifacts.routesFile, Artifacts.indexFile] ++
    Scaffold.helpers.map Prod.fst
  for name in names do
    d ← copyPath d (c.out.join (.ofText name))
  return d

/-- Copy what a command looks at. -/
def copyFor (a : Arguments) : IO Disk := do
  let l := Command.Locations.ofArguments a
  let d ← copyPath (← emptyDisk) l.config
  let settled := if a.command? = some .init then (Scaffold.seedConfig d l.config).2 else d
  copyProject d (Command.resolveConfig settled l).1

/-! ### Back to the file system -/

/-- Write what changed from one disk to another. -/
def writeBack (old new : Disk) : IO Unit := do
  for (p, node) in new.nodes do
    if old.node? p ≠ some node then
      let file := (← IO.currentDir) / spell (Watch.pathOfPlace p).display
      match node.entry with
      | .file content => IO.FS.writeBinFile file content.toByteArray
      | .directory => IO.FS.createDirAll file
      | .link _ => pure ()

/-! ### Commands -/

/-- What the options are. -/
def usage : Text :=
  Artifact.unlines
    ["Generate typed route helpers from a file-based routing tree",
     "",
     "Usage: routegen [OPTIONS] [COMMAND]",
     "",
     "Commands:",
     "  generate  Scan routes and write the generated files once (default)",
     "  init      Create the config file and hand-owned helpers, then generate",
     "  watch     Regenerate whenever the route tree changes",
     "  help      Print this message",
     "",
     "Options:",
     "      --root <ROOT>      Directory to scan for routes",
     "      --out <OUT>        Directory to write generated files to",
     "      --config <CONFIG>  Configuration file [default: routegen.toml]",
     "  -v, --verbose          Show debug logging",
     "  -h, --help             Print help",
     "  -V, --version          Print version"]

/-- What is said about a command line that is not run. -/
def stopText : UsageStop → Text
  | .help => usage
  | .version => "routegen 0.1.0\n".toList
  | .unknownArgument => "error: unexpected argument\n".toList
  | .unknownCommand => "error: unrecognized subcommand\n".toList
  | .invalidValue => "error: an option needs a value\n".toList
  | .repeated => "error: an argument cannot be used multiple times\n".toList
  | .unexpectedValue => "error: unexpected value for a switch\n".toList

/-- The nodes whose changes a watcher looks at. -/
def watched (c : Config) (d : Disk) : List (Place × Node) :=
  let root := Watch.absolute d c.root
  let out := Watch.absolute d c.out
  d.nodes.filter fun e => !Watch.isIgnored (Watch.pathOfPlace e.1) root out

/-- Generate anew whenever something changed. -/
partial def watch (c : Config) (seen : List (Place × Node)) : IO Unit := do
  IO.sleep (UInt32.ofNat (max c.debounce 100))
  let d ← copyProject (← emptyDisk) c
  let now := watched c d
  if now = seen then watch c seen
  else
    let r := Watch.regenerate c .single 0 d
    writeBack d r.disk
    IO.print (spell r.output)
    match r.failure? with
    | some t => IO.eprintln (spell t)
    | none => pure ()
    watch c now

/-- Run the command of a command line that was understood. -/
def runArguments (a : Arguments) : IO UInt32 := do
  let d ← copyFor a
  let o := Command.run a d
  writeBack d o.disk
  IO.print (spell o.output)
  match o.result with
  | .error f =>
    IO.eprintln ("error: " ++ spell f.message)
    return 1
  | .ok () =>
    if a.command? = some .watch then
      let c := (Command.resolveConfig d (Command.Locations.ofArguments a)).1
      watch c (watched c o.disk)
    return 0

end Main

end FileRoutes

/-- Run a command line. -/
def main (args : List String) : IO UInt32 := do
  match FileRoutes.Arguments.ofList (args.map String.toList) with
  | .ok a => FileRoutes.Main.runArguments a
  | .error .help =>
    IO.print (FileRoutes.Main.spell FileRoutes.Main.usage)
    return 0
  | .error .version =>
    IO.print (FileRoutes.Main.spell (FileRoutes.Main.stopText .version))
    return 0
  | .error s =>
    IO.eprint (FileRoutes.Main.spell (FileRoutes.Main.stopText s))
    return 2
