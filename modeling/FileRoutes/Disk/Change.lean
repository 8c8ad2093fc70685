import FileRoutes.Disk.Resolve

/-!
# Changing a disk

Requests that change a disk: writing and creating files, making directories and links, removing
and locking.  A request that is refused leaves the disk as it was; only making a whole chain of
directories (`Disk.makeAll`) may leave the first ones behind.

A request is refused, if it is, before it changes anything: once a file is open, all of its content
is written, so a disk that is full or that breaks down halfway through a file is not among those
spoken of here.
-/

namespace FileRoutes

namespace Disk

variable (d : Disk)

/-- Write a file, in place of the content it has. -/
def write (path : Path) (content : Bytes) : Except Fault Disk :=
  match d.find true path with
  | .error f => .error f
  | .ok s =>
    if path.endsInSlash then .error .isDirectory
    else
      match s with
      | .free dir name => .ok (d.put (dir ++ [name]) ⟨.file content, false⟩)
      | .taken p =>
        match d.node? p with
        | some ⟨.file _, locked⟩ =>
          if locked then .error .accessDenied else .ok (d.put p ⟨.file content, false⟩)
        | _ => .error .isDirectory

/-- Create a file where nothing stands, not even a link. -/
def create (path : Path) (content : Bytes) : Except Fault Disk :=
  match d.find false path with
  | .error f => .error f
  | .ok s =>
    if path.endsInSlash && path.endsInName then .error .isDirectory
    else
      match s with
      | .free dir name => .ok (d.put (dir ++ [name]) ⟨.file content, false⟩)
      | .taken _ => .error .alreadyExists

/-- Make one directory. -/
def make (path : Path) : Except Fault Disk :=
  match d.find false path with
  | .error f => .error f
  | .ok (.free dir name) => .ok (d.put (dir ++ [name]) ⟨.directory, false⟩)
  | .ok (.taken _) => .error .alreadyExists

/-- Make the first of some paths, each of which lies in the next one, with as many of the
others as are missing. -/
def makeChain : List Path → Except Fault Unit × Disk
  | [] => (.error .nothingToMake, d)
  | path :: outer =>
    if path.raw = [] then (.ok (), d)
    else
      match d.make path with
      | .ok d' => (.ok (), d')
      | .error .notFound =>
        match makeChain outer with
        | (.error f, d') => (.error f, d')
        | (.ok (), d') =>
          match d'.make path with
          | .ok d'' => (.ok (), d'')
          | .error f => (if d'.hasDirectory path then .ok () else .error f, d')
      | .error f => (if d.hasDirectory path then .ok () else .error f, d)

/-- Make a directory with all the directories it lies in. -/
def makeAll (path : Path) : Except Fault Unit × Disk := d.makeChain path.ancestors

/-- Make a symbolic link. -/
def makeLink (path target : Path) : Except Fault Disk :=
  if target.raw = [] then .error .notFound
  else if maxPathLength < target.raw.length then .error .nameTooLong
  else
    match d.find false path with
    | .error f => .error f
    | .ok (.taken _) => .error .alreadyExists
    | .ok (.free dir name) =>
      if path.endsInSlash then .error .notFound
      else .ok (d.put (dir ++ [name]) ⟨.link target, false⟩)

/-- Remove a file, a link, or a directory with everything in it.  The path has to end in a name,
and no directory that would have to be listed may be locked. -/
def remove (path : Path) : Except Fault Disk :=
  match d.find false path with
  | .error f => .error f
  | .ok (.free ..) => .error .notFound
  | .ok (.taken p) =>
    if path.endsInName = false then .error .isDirectory
    else if path.endsInSlash ∧ d.hasDirectory path = false then .error .notDirectory
    else if d.nodes.any fun e => p.isPrefixOf e.1 && e.2.isDirectory && e.2.locked then
      .error .accessDenied
    else .ok (d.drop p)

/-- Lock or unlock what stands where a path leads.  The top stays open. -/
def setLock (path : Path) (locked : Bool) : Except Fault Disk :=
  match d.look path with
  | .error f => .error f
  | .ok (p, n) => if p = [] then .error .accessDenied else .ok (d.put p { n with locked })

end Disk

end FileRoutes
