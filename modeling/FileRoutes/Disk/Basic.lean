import FileRoutes.Path.Basic
import FileRoutes.Disk.Fault

/-!
# Disks

A disk is a tree of files, directories and symbolic links, written down as the list of its
nodes with their places; a place is the list of names from the top.  A node may be locked: a
locked file can be neither read nor written, and a locked directory can be neither listed nor
entered.

That is all there is.  One lock stands for reading and for writing, so no file can be written but
not read, and no directory can be entered but not listed.  Every file has one place: there are no
hard links, and whoever writes to a place changes the file there and no other.  Nothing else has a
part in what a request does, such as owners, times, devices or the room that is left.

* `Disk.node?` is the view through which everything else looks at a disk;
* `Disk.inside` lists a directory, in the order in which its nodes are written down: two disks
  that differ only in the order of their nodes are one tree whose directories are listed in
  different orders;
* `Disk.Tree` says that the list is a tree: no place occurs twice, what contains a node is
  a directory, and names are file names;
* `Disk.put` and `Disk.drop` change single places.
-/

namespace FileRoutes

/-- The number of bytes that a name may have. -/
def maxNameLength : Nat := 255

/-- The bytes can name a node. -/
structure Name.Proper (n : Name) : Prop where
  ne_nil : n ≠ []
  ne_dot : n ≠ Path.dot
  ne_dotDot : n ≠ Path.dotDot
  no_slash : Path.slash ∉ n
  no_nul : 0 ∉ n
  short : n.length ≤ maxNameLength

instance (n : Name) : Decidable n.Proper :=
  decidable_of_iff
    (n ≠ [] ∧ n ≠ Path.dot ∧ n ≠ Path.dotDot ∧ Path.slash ∉ n ∧ 0 ∉ n ∧ n.length ≤ maxNameLength)
    ⟨fun ⟨h₁, h₂, h₃, h₄, h₅, h₆⟩ => ⟨h₁, h₂, h₃, h₄, h₅, h₆⟩,
      fun h => ⟨h.ne_nil, h.ne_dot, h.ne_dotDot, h.no_slash, h.no_nul, h.short⟩⟩

/-- A place on a disk: the names on the way to it, from the top. -/
abbrev Place := List Name

/-- What can stand at a place. -/
inductive Entry where
  | file (content : Bytes)
  | directory
  /-- A symbolic link, with the path it names. -/
  | link (target : Path)
  deriving DecidableEq, Repr

/-- What stands at a place, and whether it is locked. -/
structure Node where
  entry : Entry
  locked : Bool
  deriving DecidableEq, Repr

/-- A tree of nodes, and the directory that relative paths start from. -/
structure Disk where
  nodes : List (Place × Node)
  home : Place
  deriving DecidableEq, Repr

namespace Node

/-- The node is a directory. -/
def isDirectory (n : Node) : Bool := n.entry = .directory

end Node

namespace Disk

/-- What stands at a place.  The top is always an open directory. -/
def node? (d : Disk) (p : Place) : Option Node :=
  if p = [] then some ⟨.directory, false⟩
  else (d.nodes.find? fun e => e.1 = p).map Prod.snd

/-- A directory stands at a place. -/
def directoryAt (d : Disk) (p : Place) : Bool := (d.node? p).any Node.isDirectory

/-- The list of nodes is a tree: every place occurs once, none is the top, every node lies in a
directory, and all names are file names. -/
structure Tree (d : Disk) : Prop where
  nodup : (d.nodes.map Prod.fst).Nodup
  ne_top : ∀ e ∈ d.nodes, e.1 ≠ []
  inside : ∀ e ∈ d.nodes, d.directoryAt e.1.dropLast = true
  proper : ∀ e ∈ d.nodes, ∀ n ∈ e.1, n.Proper

instance (d : Disk) : Decidable d.Tree :=
  decidable_of_iff
    ((d.nodes.map Prod.fst).Nodup ∧ (∀ e ∈ d.nodes, e.1 ≠ []) ∧
      (∀ e ∈ d.nodes, d.directoryAt e.1.dropLast = true) ∧ ∀ e ∈ d.nodes, ∀ n ∈ e.1, n.Proper)
    ⟨fun ⟨h₁, h₂, h₃, h₄⟩ => ⟨h₁, h₂, h₃, h₄⟩, fun h => ⟨h.nodup, h.ne_top, h.inside, h.proper⟩⟩

/-- What lies in the directory at a place, in the order in which it is listed. -/
def inside (d : Disk) (p : Place) : List (Name × Node) :=
  d.nodes.filterMap fun e => if e.1.dropLast = p then e.1.getLast?.map (·, e.2) else none

/-- The number of names of the deepest place. -/
def height (d : Disk) : Nat := d.nodes.foldr (fun e h => max e.1.length h) 0

/-- Put a node at a place, in place of the one that stands there.  A new place goes in front of
the first one that comes after it by name. -/
def putNode (p : Place) (n : Node) : List (Place × Node) → List (Place × Node)
  | [] => [(p, n)]
  | e :: es =>
    if e.1 = p then (p, n) :: es
    else if (compare p e.1).isLT ∧ p ∉ es.map Prod.fst then (p, n) :: e :: es
    else e :: putNode p n es

/-- Put a node at a place, in place of the one that stands there. -/
def put (d : Disk) (p : Place) (n : Node) : Disk := { d with nodes := putNode p n d.nodes }

/-- Take away a place and everything below it. -/
def drop (d : Disk) (p : Place) : Disk :=
  { d with nodes := d.nodes.filter fun e => !p.isPrefixOf e.1 }

/-- The nodes below a place, with the names that lead to them, in the order in which a walk
meets them when it goes through each directory by name: a directory comes before what is in
it. -/
def below (d : Disk) (p : Place) : List (List Name × Node) :=
  let inside := d.nodes.filterMap fun e =>
    if p.isPrefixOf e.1 ∧ e.1 ≠ p then some (e.1.drop p.length, e.2) else none
  inside.mergeSort fun a b => (compare a.1 b.1).isLE

theorem node?_put (d : Disk) {p : Place} (hp : p ≠ []) (n : Node) (q : Place) :
    (d.put p n).node? q = if q = p then some n else d.node? q := by
  by_cases hq : q = []
  · simp [node?, hq, Ne.symm hp]
  simp only [node?, hq, if_false, put]
  induction d.nodes with
  | nil => by_cases h : q = p <;> simp [putNode, h, eq_comm]
  | cons e es ih =>
    have hpq : q ≠ p → ¬p = q := fun h h' => h h'.symm
    by_cases he : e.1 = p
    · by_cases h : q = p
      · simp [putNode, he, h]
      · simp [putNode, he, h, hpq h]
    · rw [putNode, if_neg he]
      split
      · by_cases h : q = p
        · simp [h]
        · simp [h, hpq h, List.find?_cons]
      · by_cases h : e.1 = q
        · have hqp : ¬q = p := fun h' => he (h.trans h')
          simp [h, hqp]
        · simpa [h, List.find?_cons] using ih

end Disk

end FileRoutes
