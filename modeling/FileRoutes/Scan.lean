import FileRoutes.Disk.Resolve
import FileRoutes.Page.Declaration
import FileRoutes.Page.FileName
import FileRoutes.Route.Record
import FileRoutes.Error

/-!
# Scanning for pages

`Disk.scan` finds the pages below a root directory that declare routes.  Directories whose names
start with `_` are private: they are left out with everything below them, and so are those that
the caller excludes.  Symbolic links below the root are not followed.

A scan is a walk and a reading of what the walk comes across:

* `Scan.walk` goes down from the root, each directory in the order in which it is listed, and
  makes a list of `Scan.Sight`s;
* `Scan.recognize` says what a sight adds to the records, and `Scan.collect` puts this together,
  up to the first error.

A root that leads nowhere has no pages.
-/

namespace FileRoutes

namespace Scan

/-- Directories that are never entered: their names start with `_`. -/
def isPrivate (n : Name) : Bool := n.head? = some 0x5F

/-- What a walk comes across, by the names that lead to it from the root. -/
inductive Sight where
  /-- A directory that is not private: the caller is asked whether to exclude it. -/
  | candidate (dirs : List Name)
  /-- A directory that cannot be listed. -/
  | closed (dirs : List Name) (fault : Fault)
  /-- A file. -/
  | file (names : List Name)
  deriving DecidableEq, Repr

/-- The directory that the caller is asked about. -/
def Sight.candidate? : Sight → Option (List Name)
  | .candidate dirs => some dirs
  | _ => none

/-- What a walk comes across at an entry of the directory that `dirs` leads to, when `below` says
what it comes across in a directory. -/
def walkEntry (exclude : Path → Bool) (below : List Name → List Sight) (dirs : List Name)
    (e : Name × Node) : List Sight :=
  let names := dirs ++ [e.1]
  match e.2.entry with
  -- links below the root are not followed
  | .link _ => []
  | .file _ => [.file names]
  | .directory =>
    if isPrivate e.1 then []
    else if exclude (Path.ofNames names) then [.candidate names]
    else .candidate names :: below names

/-- What a walk through the directory that `dirs` leads to comes across, when it goes through so
many levels at most. -/
def walk (d : Disk) (root : Path) (exclude : Path → Bool) : Nat → List Name → List Sight
  | 0, _ => []
  | levels + 1, dirs =>
    match d.list (root.descend dirs) with
    | .error f => [.closed dirs f]
    | .ok es => es.flatMap (walkEntry exclude (walk d root exclude levels) dirs)

/-- The pattern of the pages in the directory that `dirs` leads to, if the names are UTF-8. -/
def patternOf? (dirs : List Name) : Option Text :=
  (dirs.mapM Utf8.decode?).map fun names => '/' :: joinWith '/' names

/-- The first element that occurs before itself. -/
def firstRepeated? (before : List Text) : List Text → Option Text
  | [] => none
  | x :: l => if before.contains x then some x else firstRepeated? (before ++ [x]) l

/-- The record of a page whose text declares a route. -/
def record (root : Path) (names : List Name) : Except Error (Record Unit) :=
  let source := root.descend names
  match patternOf? names.dropLast with
  | none => .error (.nonUtf8Path (source.parent?.getD root))
  | some pattern =>
    match firstRepeated? [] (Pattern.names pattern) with
    | some name => .error (.duplicateParameter pattern name source)
    | none => .ok ⟨source, pattern, ()⟩

/-- What a sight adds to the records: a page that declares a route adds its record. -/
def recognize (d : Disk) (root : Path) : Sight → Except Error (Option (Record Unit))
  | .candidate _ => .ok none
  | .closed dirs f => .error (.scan (root.descend dirs) f)
  | .file names =>
    if names.getLast?.any Page.isFileName then
      match d.read (root.descend names) with
      | .error f => .error (.scan (root.descend names) f)
      | .ok content =>
        if Declaration.declares (Utf8.decodeLossy content) then
          match record root names with
          | .ok r => .ok (some r)
          | .error e => .error e
        else .ok none
    else .ok none

/-- What sights add to the records, up to the first error. -/
def collect (d : Disk) (root : Path) : List Sight → Except Error (List (Record Unit))
  | [] => .ok []
  | x :: xs =>
    match recognize d root x with
    | .error e => .error e
    | .ok r =>
      match collect d root xs with
      | .error e => .error e
      | .ok rs => .ok (r.toList ++ rs)

/-- The directories that the caller is asked about, up to the first error. -/
def asked (d : Disk) (root : Path) : List Sight → List (List Name)
  | [] => []
  | x :: xs =>
    x.candidate?.toList ++
      match recognize d root x with
      | .error _ => []
      | .ok _ => asked d root xs

end Scan

namespace Disk

variable (d : Disk)

/-- The place of the directory that a scan starts from, if there is one. -/
def scanStart? (root : Path) : Option (Place × Node) :=
  match d.look root with
  | .ok (p, n) => if n.isDirectory then some (p, n) else none
  | .error _ => none

/-- What a scan comes across below a root.  No place is deeper than the walk can go. -/
def sights (root : Path) (exclude : Path → Bool) : List Scan.Sight :=
  match d.scanStart? root with
  | none => []
  | some _ => Scan.walk d root exclude (d.height + 1) []

/-- The records of the pages below a root, in the order of the walk. -/
def scan (root : Path) (exclude : Path → Bool) : Except Error (List (Record Unit)) :=
  Scan.collect d root (d.sights root exclude)

/-- The directories for which a scan asks whether to exclude them, as seen from the root. -/
def scanAsks (root : Path) (exclude : Path → Bool) : List Path :=
  (Scan.asked d root (d.sights root exclude)).map Path.ofNames

end Disk

/-- The route pattern of the pages in the directory `dir` below `root`. -/
def routePattern (root dir : Path) : Except Error Text :=
  let names := ((dir.below? root).getD dir.components).filterMap Path.Component.name?
  match Scan.patternOf? names with
  | some p => .ok p
  | none => .error (.nonUtf8Path dir)

end FileRoutes
