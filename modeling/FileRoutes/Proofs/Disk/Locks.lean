import FileRoutes.Proofs.Disk.Tree
import FileRoutes.Disk.Resolve

/-!
# Locks

A lock only ever stands in the way: on a disk with locks every request is answered as on the same
disk with all of them open (`Disk.opened`), unless access is denied.  This holds for resolving a
path (`Disk.find_opened`), for looking at what stands there (`Disk.look_opened`), and for reading
(`Disk.read_opened`) and listing (`Disk.list_opened`).
-/

namespace FileRoutes

namespace Node

/-- The node with its lock open. -/
def opened (n : Node) : Node := { n with locked := false }

@[simp] theorem locked_opened (n : Node) : n.opened.locked = false := rfl

@[simp] theorem isDirectory_opened (n : Node) : n.opened.isDirectory = n.isDirectory := rfl

end Node

namespace Disk

/-- The same tree with nothing locked. -/
def opened (d : Disk) : Disk := { d with nodes := d.nodes.map (Prod.map id Node.opened) }

variable {d : Disk} {follow : Bool} {path : Path} {p : Place}

/-! ### Nodes -/

@[simp] theorem node?_opened (d : Disk) (p : Place) :
    d.opened.node? p = (d.node? p).map Node.opened := by
  by_cases hp : p = []
  · rw [hp]
    rfl
  · rw [node?, node?, if_neg hp, if_neg hp, opened, List.find?_map, Option.map_map, Option.map_map]
    rfl

theorem inside_opened (d : Disk) (p : Place) :
    d.opened.inside p = (d.inside p).map (Prod.map id Node.opened) := by
  rw [inside, inside, opened, List.filterMap_map, List.map_filterMap]
  refine List.filterMap_congr fun e _ => ?_
  simp only [Function.comp_apply, Prod.map_fst, Prod.map_snd, id_eq]
  split_ifs
  · cases e.1.getLast? <;> rfl
  · rfl

theorem height_opened (d : Disk) : d.opened.height = d.height := by
  rw [height, height, opened, List.foldr_map]
  rfl

/-! ### Paths -/

theorem enter_opened (h : d.enter p ≠ .error .accessDenied) : d.opened.enter p = d.enter p := by
  rw [enter] at h
  rw [enter, enter, node?_opened]
  cases hn : d.node? p with
  | none => rfl
  | some n =>
    cases hlock : n.locked with
    | false => simp [hlock]
    | true =>
      have hdir : n.isDirectory = false := by simpa [hn, hlock] using h
      simp [hdir]

theorem walkWith_opened {onLink onLink' : Place → List Bytes → Except Fault Spot}
    (hlink : ∀ p s, onLink p s ≠ .error .accessDenied → onLink' p s = onLink p s)
    {s : List Bytes} (h : d.walkWith onLink follow p s ≠ .error .accessDenied) :
    d.opened.walkWith onLink' follow p s = d.walkWith onLink follow p s := by
  induction s generalizing p with
  | nil => rfl
  | cons piece rest ih =>
    have henter : d.opened.enter p = d.enter p :=
      enter_opened fun henter => h (by rw [walkWith, henter])
    rw [walkWith] at h
    rw [walkWith, walkWith, henter, node?_opened]
    cases hp : d.enter p with
    | error f => rfl
    | ok =>
      simp only [hp] at h
      by_cases hdot : piece = Path.dot
      · simp only [if_pos hdot] at h ⊢
        exact ih h
      by_cases hdots : piece = Path.dotDot
      · simp only [if_neg hdot, if_pos hdots] at h ⊢
        exact ih h
      by_cases hlen : maxNameLength < piece.length
      · simp only [if_neg hdot, if_neg hdots, if_pos hlen]
      simp only [if_neg hdot, if_neg hdots, if_neg hlen] at h ⊢
      -- what stands at the piece is the same, whether it is locked or not
      cases hn : d.node? (p ++ [piece]) with
      | none => rfl
      | some n =>
        obtain ⟨entry, locked⟩ := n
        simp only [hn] at h
        cases entry with
        | link target =>
          simp only [Option.map_some, Node.opened] at h ⊢
          split_ifs at h ⊢
          · rfl
          · rfl
          · exact hlink _ _ h
        | file content => exact ih h
        | directory => exact ih h

theorem walk_opened {links : Nat} {s : List Bytes}
    (h : d.walk follow links p s ≠ .error .accessDenied) :
    d.opened.walk follow links p s = d.walk follow links p s := by
  induction links generalizing p s with
  | zero => exact walkWith_opened (fun _ _ _ => rfl) h
  | succ links ih => exact walkWith_opened (fun _ _ => ih) h

theorem find_opened (h : d.find follow path ≠ .error .accessDenied) :
    d.opened.find follow path = d.find follow path := by
  rw [find, find]
  rw [find] at h
  split_ifs at h ⊢
  · rfl
  · rfl
  · rfl
  · exact walk_opened h

theorem look_opened (h : d.look path ≠ .error .accessDenied) :
    d.opened.look path = (d.look path).map (Prod.map id Node.opened) := by
  have hfind : d.opened.find true path = d.find true path :=
    find_opened fun hfind => h (by rw [look, hfind])
  rw [look, look, hfind]
  cases d.find true path with
  | error f => rfl
  | ok spot =>
    cases spot with
    | free dir name => rfl
    | taken p =>
      simp only [node?_opened]
      cases d.node? p with
      | none => rfl
      | some n =>
        by_cases hslash : path.endsInSlash = true ∧ n.isDirectory = false
        · simp [hslash, Except.map]
        · simp [hslash, Except.map]

theorem read_opened (h : d.read path ≠ .error .accessDenied) :
    d.opened.read path = d.read path := by
  have hlook : d.opened.look path = (d.look path).map (Prod.map id Node.opened) :=
    look_opened fun hlook => h (by rw [read, hlook])
  rw [read] at h
  rw [read, read, hlook]
  cases hp : d.look path with
  | error f => rfl
  | ok e =>
    obtain ⟨p, entry, locked⟩ := e
    cases locked with
    | false => rfl
    | true => simp [hp] at h

theorem list_opened (h : d.list path ≠ .error .accessDenied) :
    d.opened.list path = (d.list path).map (List.map (Prod.map id Node.opened)) := by
  have hlook : d.opened.look path = (d.look path).map (Prod.map id Node.opened) :=
    look_opened fun hlook => h (by rw [list, hlook])
  rw [list] at h
  rw [list, list, hlook]
  cases hp : d.look path with
  | error f => rfl
  | ok e =>
    obtain ⟨p, n⟩ := e
    simp only [hp] at h
    by_cases hdir : n.isDirectory = false
    · simp [hdir, Except.map]
    · have hlock : n.locked = false := by simpa [hdir] using h
      simp [hdir, hlock, inside_opened, Except.map]

end Disk

end FileRoutes
