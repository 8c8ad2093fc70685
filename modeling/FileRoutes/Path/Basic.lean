import FileRoutes.Text.Utf8

/-!
# Paths

A path is the byte string that names a place, as it was written: `app//x/./page.ts` and
`app/x/page.ts` are two paths.  What they have in common are their components
(`Path.components`): repeated slashes and inner `.` pieces do not count, `..` is kept.

* `Path.join`, `Path.parent?` and `Path.ancestors` keep the spelling of what they are given;
* `Path.startsWith` and `Path.below?` compare component by component, never as text.
-/

namespace FileRoutes

/-- A file name: a byte string without `/`, other than the empty one, `.` and `..`. -/
abbrev Name := Bytes

/-- A path, as it was written. -/
structure Path where
  raw : Bytes
  deriving DecidableEq, Repr

namespace Path

/-- The byte between two pieces of a path. -/
def slash : UInt8 := 0x2F

/-- The piece `.`. -/
def dot : Bytes := [0x2E]

/-- The piece `..`. -/
def dotDot : Bytes := [0x2E, 0x2E]

/-- A part of a path. -/
inductive Component where
  /-- The slash in front of an absolute path. -/
  | root
  /-- A leading `.`. -/
  | current
  /-- A `..`. -/
  | parent
  /-- A name. -/
  | name (n : Name)
  deriving DecidableEq, Repr

/-- The bytes of a part. -/
def Component.raw : Component → Bytes
  | .root => [slash]
  | .current => dot
  | .parent => dotDot
  | .name n => n

/-- The name that a part is. -/
def Component.name? : Component → Option Name
  | .name n => some n
  | _ => none

/-- The path that a text spells. -/
def ofText (t : Text) : Path := ⟨Utf8.encode t⟩

/-- The text of a path, with replacement characters where it is not UTF-8. -/
def display (p : Path) : Text := Utf8.decodeLossy p.raw

/-- The pieces of a path between its slashes. -/
def pieces (p : Path) : List Bytes := splitOn slash p.raw

/-- The path is absolute. -/
def isAbsolute (p : Path) : Bool := p.raw.head? = some slash

/-- Pieces that add nothing inside a path. -/
def isIdle (piece : Bytes) : Bool := piece = [] || piece = dot

/-- The part that a piece after the first one is. -/
def innerComponent? (piece : Bytes) : Option Component :=
  if isIdle piece then none
  else if piece = dotDot then some .parent
  else some (.name piece)

/-- The part that the first piece is: nothing in front of a slash spells the top. -/
def firstComponent? (piece : Bytes) (alone : Bool) : Option Component :=
  if piece = [] then (if alone then none else some .root)
  else if piece = dot then some .current
  else innerComponent? piece

/-- The parts of a path. -/
def components (p : Path) : List Component :=
  match p.pieces with
  | [] => []
  | first :: rest => (firstComponent? first rest.isEmpty).toList ++ rest.filterMap innerComponent?

/-- The parts of `q` are the first parts of `p`. -/
def startsWith (p q : Path) : Bool := q.components.isPrefixOf p.components

/-- The parts of `p` after those of `q`, when `p` starts with `q`. -/
def below? (p q : Path) : Option (List Component) :=
  if p.startsWith q then some (p.components.drop q.components.length) else none

/-- The pieces after the first `n` parts of some inner pieces. -/
def dropParts : Nat → List Bytes → List Bytes
  | 0, ps => ps
  | _ + 1, [] => []
  | n + 1, p :: ps => if isIdle p then dropParts (n + 1) ps else dropParts n ps

/-- Some pieces without idle ones at the ends. -/
def trimIdle (ps : List Bytes) : List Bytes :=
  ((ps.dropWhile isIdle).reverse.dropWhile isIdle).reverse

/-- The rest of `p` after `q`, as it is written, when `p` starts with `q`. -/
def relativeTo? (p q : Path) : Option Path :=
  if p.startsWith q then
    match q.components.length, p.pieces with
    | n + 1, _ :: rest => some ⟨joinWith slash (trimIdle (dropParts n rest))⟩
    | _, _ => some p
  else none

/-- The name at the end of a path. -/
def fileName? (p : Path) : Option Name := p.components.getLast?.bind Component.name?

/-- Go on from `p` to `q`: an absolute `q` replaces `p`. -/
def join (p q : Path) : Path :=
  if q.isAbsolute then q
  else if p.raw = [] ∨ p.raw.getLast? = some slash then ⟨p.raw ++ q.raw⟩
  else ⟨p.raw ++ slash :: q.raw⟩

/-- Go down from `p` through the given names. -/
def descend (p : Path) (ns : List Name) : Path := ns.foldl (fun q n => q.join ⟨n⟩) p

/-- The path made of names only. -/
def ofNames (ns : List Name) : Path := ⟨joinWith slash ns⟩

/-! ### Going up -/

/-- The paths that begin with the piece `first` and go on with ever fewer of the pieces `rest`
(last piece first), without idle pieces at the end; `base` is what remains in the end. -/
def shrink (base : List Path) (first : Bytes) : List Bytes → List Path
  | [] => base
  | piece :: rest =>
    if isIdle piece then shrink base first rest
    else ⟨joinWith slash (first :: (piece :: rest).reverse)⟩ :: shrink base first rest

/-- A path and the paths that contain it, from the inside out. -/
def ancestors (p : Path) : List Path :=
  match p.pieces with
  | [] => [p]
  | first :: rest =>
    let base : List Path :=
      if first = [] then (if rest.isEmpty then [⟨[]⟩] else [⟨[slash]⟩]) else [⟨first⟩, ⟨[]⟩]
    p :: (shrink base first rest.reverse).tail

/-- The path that contains `p`. -/
def parent? (p : Path) : Option Path := p.ancestors[1]?

end Path

end FileRoutes
