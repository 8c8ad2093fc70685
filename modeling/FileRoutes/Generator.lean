import FileRoutes.Artifact.Basic
import FileRoutes.Disk.Change
import FileRoutes.Route.Order
import FileRoutes.Scan

/-!
# Generators

A generator scans a root directory, puts the records in order, renders their manifest and writes
the artifacts to an output directory.  Nothing is kept between two runs.

* `Generator.records` and `Generator.render` only look at the disk;
* `writeArtifacts` changes it, and leaves files alone that hold the right bytes already.
-/

namespace FileRoutes

/-- What happened to an artifact. -/
inductive WriteStatus where
  | written
  /-- The file held the same bytes already. -/
  | unchanged
  deriving DecidableEq, Repr

/-- An artifact's file, and what happened to it. -/
structure WrittenFile where
  path : Path
  status : WriteStatus
  deriving DecidableEq, Repr

/-- Write one file unless it holds the same bytes already. -/
def writeFile (d : Disk) (path : Path) (content : Bytes) : Except Error (WriteStatus × Disk) :=
  match d.read path with
  | .ok old =>
    if old = content then .ok (.unchanged, d)
    else
      match d.write path content with
      | .ok d' => .ok (.written, d')
      | .error f => .error (.write path f)
  | .error _ =>
    match d.write path content with
    | .ok d' => .ok (.written, d')
    | .error f => .error (.write path f)

/-- Write files into a directory, one after another, up to the first that cannot be written. -/
def writeFiles (out : Path) : List (Text × Text) → Disk → Except Error (List WrittenFile) × Disk
  | [], d => (.ok [], d)
  | (name, body) :: files, d =>
    let path := out.join (Path.ofText name)
    match writeFile d path (Utf8.encode body) with
    | .error e => (.error e, d)
    | .ok (status, d') =>
      match writeFiles out files d' with
      | (.ok ws, d'') => (.ok (⟨path, status⟩ :: ws), d'')
      | (.error e, d'') => (.error e, d'')

/-- Write the artifacts into a directory, which is made if need be. -/
def writeArtifacts (d : Disk) (a : Artifacts) (out : Path) :
    Except Error (List WrittenFile) × Disk :=
  match d.makeAll out with
  | (.error f, d') => (.error (.write out f), d')
  | (.ok (), d') => writeFiles out a.files d'

/-- The outcome of a run. -/
structure Summary where
  statics : Nat
  dynamics : Nat
  files : List WrittenFile
  deriving DecidableEq, Repr

/-- The number of all routes. -/
def Summary.total (s : Summary) : Nat := s.statics + s.dynamics

/-- What to scan, how to order the records, and where to write. -/
structure Generator (M : Type) where
  root : Path
  out : Path
  /-- Directories, by their path below the root, that are left out. -/
  exclude : Path → Bool
  /-- The payload of a record. -/
  payload : Record Unit → M
  /-- How to compare records; without it they stay in the order of the scan. -/
  order? : Option (Record M → Record M → Ordering)

namespace Generator

variable {M : Type} (g : Generator M)

/-- The generator with other payloads.  An order compares records by the payloads it was made for,
so it goes. -/
def withPayload {N : Type} (payload : Record Unit → N) : Generator N :=
  ⟨g.root, g.out, g.exclude, payload, none⟩

/-- The generator with another order. -/
def withOrder (cmp : Record M → Record M → Ordering) : Generator M := { g with order? := some cmp }

/-- The records with their payloads, in order. -/
def arrange (rs : List (Record Unit)) : List (Record M) :=
  let rs := rs.map fun r => r.withExtra (g.payload r)
  match g.order? with
  | none => rs
  | some cmp => Record.sortBy cmp rs

/-- The records of the pages on a disk. -/
def records (d : Disk) : Except Error (List (Record M)) :=
  match d.scan g.root g.exclude with
  | .ok rs => .ok (g.arrange rs)
  | .error e => .error e

/-- The manifest and the artifacts of the pages on a disk. -/
def render (d : Disk) : Except Error (Manifest M × Artifacts) :=
  match g.records d with
  | .ok rs =>
    let m := Manifest.ofRecords rs
    .ok (m, .ofManifest m)
  | .error e => .error e

/-- Write the artifacts of the pages on a disk. -/
def run (d : Disk) : Except Error Summary × Disk :=
  match g.render d with
  | .error e => (.error e, d)
  | .ok (m, a) =>
    match writeArtifacts d a g.out with
    | (.error e, d') => (.error e, d')
    | (.ok files, d') => (.ok ⟨m.statics.length, m.dynamics.length, files⟩, d')

end Generator

end FileRoutes
