import FileRoutes.Disk.Basic

/-!
# Resolving paths

`Disk.find` follows a path through a disk to the place it names.  Directories on the way must
be open; symbolic links on the way are followed, and one at the end if the request asks for it.
A chain of more than `maxLinks` links is given up.

The answer is a `Spot`: a place where something stands, or a free place in a directory, when
only the last name is missing.
-/

namespace FileRoutes

/-- Where a path leads. -/
inductive Spot where
  /-- To a place where something stands. -/
  | taken (p : Place)
  /-- To a place in an open directory where nothing stands. -/
  | free (dir : Place) (name : Name)
  deriving DecidableEq, Repr

/-- The number of symbolic links that one path may go through. -/
def maxLinks : Nat := 40

/-- The number of bytes that a path may have. -/
def maxPathLength : Nat := 4095

namespace Path

/-- The pieces that a walk along the path goes through. -/
def steps (p : Path) : List Bytes := p.pieces.filter fun piece => piece ≠ []

/-- The path ends in a slash, so it can only name a directory. -/
def endsInSlash (p : Path) : Bool := p.raw.getLast? = some slash

/-- The last piece is a name, not `.` or `..`. -/
def endsInName (p : Path) : Bool :=
  match p.steps.getLast? with
  | some piece => piece ≠ dot && piece ≠ dotDot
  | none => false

/-- The pieces that a walk goes through when the path stands in a link. -/
def linkSteps (p : Path) : List Bytes :=
  if p.endsInSlash then p.steps ++ [dot] else p.steps

/-- The place that a walk along the path starts from, when relative paths start from `p`. -/
def origin (path : Path) (p : Place) : Place := if path.isAbsolute then [] else p

end Path

namespace Disk

variable (d : Disk)

/-- A name can be looked up in `p`: an open directory stands there. -/
def enter (p : Place) : Except Fault Unit :=
  match d.node? p with
  | none => .error .notFound
  | some n =>
    if n.isDirectory then (if n.locked then .error .accessDenied else .ok ())
    else .error .notDirectory

/-- Walk from a directory along some pieces.  `onLink` goes on where the walk meets a link, and
`follow` says whether to go on from a link at the end. -/
def walkWith (onLink : Place → List Bytes → Except Fault Spot) (follow : Bool) :
    Place → List Bytes → Except Fault Spot
  | p, [] => .ok (.taken p)
  | p, piece :: rest =>
    match d.enter p with
    | .error f => .error f
    | .ok () =>
      if piece = Path.dot then walkWith onLink follow p rest
      else if piece = Path.dotDot then walkWith onLink follow p.dropLast rest
      else if maxNameLength < piece.length then .error .nameTooLong
      else
        match d.node? (p ++ [piece]) with
        | none => if rest = [] then .ok (.free p piece) else .error .notFound
        | some ⟨.link target, _⟩ =>
          if rest = [] ∧ follow = false then .ok (.taken (p ++ [piece]))
          else if target.raw = [] then .error .notFound
          else onLink (target.origin p) (target.linkSteps ++ rest)
        | some _ => walkWith onLink follow (p ++ [piece]) rest

/-- Walk from a directory along some pieces, through at most the given number of links. -/
def walk (follow : Bool) : Nat → Place → List Bytes → Except Fault Spot
  | 0 => d.walkWith (fun _ _ => .error .tooManyLinks) follow
  | links + 1 => d.walkWith (walk follow links) follow

/-- The place that a path names. -/
def find (follow : Bool) (path : Path) : Except Fault Spot :=
  if path.raw = [] then .error .notFound
  else if 0 ∈ path.raw then .error .nulInPath
  else if maxPathLength < path.raw.length then .error .nameTooLong
  else d.walk follow maxLinks (path.origin d.home) path.steps

/-- What stands where a path leads, links followed.  A path that ends in a slash leads to
directories only. -/
def look (path : Path) : Except Fault (Place × Node) :=
  match d.find true path with
  | .error f => .error f
  | .ok (.free ..) => .error .notFound
  | .ok (.taken p) =>
    match d.node? p with
    | none => .error .notFound
    | some n =>
      if path.endsInSlash ∧ n.isDirectory = false then .error .notDirectory else .ok (p, n)

/-- Something stands where a path leads. -/
def hasPath (path : Path) : Bool :=
  match d.look path with
  | .ok _ => true
  | .error _ => false

/-- A directory stands where a path leads. -/
def hasDirectory (path : Path) : Bool :=
  match d.look path with
  | .ok (_, n) => n.isDirectory
  | .error _ => false

/-- The content of the file that a path names. -/
def read (path : Path) : Except Fault Bytes :=
  match d.look path with
  | .error f => .error f
  | .ok (_, n) =>
    if n.locked then .error .accessDenied
    else
      match n.entry with
      | .file content => .ok content
      | _ => .error .isDirectory

/-- What lies in the directory that a path names. -/
def list (path : Path) : Except Fault (List (Name × Node)) :=
  match d.look path with
  | .error f => .error f
  | .ok (p, n) =>
    if n.isDirectory = false then .error .notDirectory
    else if n.locked then .error .accessDenied
    else .ok (d.inside p)

end Disk

end FileRoutes
