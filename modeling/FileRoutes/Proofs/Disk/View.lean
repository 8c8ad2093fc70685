import FileRoutes.Proofs.Disk.Tree

/-!
# What a disk looks like

Resolving a path looks at a disk through `Disk.node?` and its home only, so two disks that look the
same (`Disk.SameView`) resolve all paths alike: `Disk.SameView.look` and `Disk.SameView.read`.

One tree whose directories are listed in other orders (`Disk.Relisted`) looks the same, and each
directory is listed with the same nodes (`Disk.Relisted.mem_list`).
-/

namespace FileRoutes

namespace Disk

variable {d d' : Disk}

/-- The same nodes stand at all places, and relative paths start from the same one. -/
structure SameView (d d' : Disk) : Prop where
  node? : ∀ p, d.node? p = d'.node? p
  home : d.home = d'.home

/-- The nodes are written down in another order: directories may be listed in other orders. -/
structure Relisted (d d' : Disk) : Prop where
  nodes : d.nodes.Perm d'.nodes
  home : d.home = d'.home

/-! ### The same view -/

namespace SameView

variable (h : d.SameView d')

include h

theorem enter (p : Place) : d.enter p = d'.enter p := by
  rw [Disk.enter, Disk.enter, h.node?]

theorem walkWith {onLink onLink' : Place → List Bytes → Except Fault Spot}
    (hlink : ∀ p s, onLink p s = onLink' p s) (follow : Bool) (p : Place) (s : List Bytes) :
    d.walkWith onLink follow p s = d'.walkWith onLink' follow p s := by
  induction s generalizing p with
  | nil => rfl
  | cons piece rest ih => simp only [Disk.walkWith, h.enter, h.node?, hlink, ih]

theorem walk (follow : Bool) (links : Nat) (p : Place) (s : List Bytes) :
    d.walk follow links p s = d'.walk follow links p s := by
  induction links generalizing p s with
  | zero => exact h.walkWith (fun _ _ => rfl) follow p s
  | succ links ih => exact h.walkWith ih follow p s

theorem find (follow : Bool) (path : Path) : d.find follow path = d'.find follow path := by
  rw [Disk.find, Disk.find, h.home, h.walk]

theorem look (path : Path) : d.look path = d'.look path := by
  simp only [Disk.look, h.find, h.node?]

theorem read (path : Path) : d.read path = d'.read path := by
  rw [Disk.read, Disk.read, h.look]

end SameView

/-! ### Other orders -/

namespace Relisted

variable (h : d.Relisted d')

include h

theorem sameView (hd : d.Tree) : d.SameView d' := by
  have hnodup' : (d'.nodes.map Prod.fst).Nodup := (h.nodes.map Prod.fst).nodup_iff.1 hd.nodup
  refine ⟨fun p => ?_, h.home⟩
  by_cases hp : p = []
  · rw [hp, node?_nil, node?_nil]
  · refine Option.ext fun n => ?_
    rw [node?_eq_some hd.nodup hp, node?_eq_some hnodup' hp, h.nodes.mem_iff]

theorem height : d.height = d'.height :=
  h.nodes.foldr_eq' (fun e _ e' _ k => Nat.max_left_comm e'.1.length e.1.length k) 0

theorem mem_inside {p : Place} {e : Name × Node} : e ∈ d.inside p ↔ e ∈ d'.inside p :=
  (h.nodes.filterMap _).mem_iff

/-- A directory is listed on both disks or on none, with the same nodes. -/
theorem list (hd : d.Tree) (path : Path) :
    (∃ f, d.list path = .error f ∧ d'.list path = .error f) ∨
      ∃ es es', d.list path = .ok es ∧ d'.list path = .ok es' ∧ ∀ e, e ∈ es ↔ e ∈ es' := by
  rw [Disk.list, Disk.list, (h.sameView hd).look]
  cases d'.look path with
  | error f => exact .inl ⟨f, rfl, rfl⟩
  | ok r =>
    obtain ⟨p, n⟩ := r
    simp only
    split_ifs
    · exact .inl ⟨_, rfl, rfl⟩
    · exact .inl ⟨_, rfl, rfl⟩
    · exact .inr ⟨_, _, rfl, rfl, fun _ => h.mem_inside⟩

end Relisted

end Disk

end FileRoutes
