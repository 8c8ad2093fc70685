import FileRoutes.Proofs.Disk.Locks
import FileRoutes.Scan

/-!
# Scans of locked trees

On a tree with locks a walk comes across the same things as on the same tree with all of them open,
up to the first directory that is closed to it (`Scan.SameUpToDenial`), and reading a page is either
denied or shows the same.  So below a root that can be reached, locks make a scan fail or do nothing
to it: no record gets lost unnoticed.

This does not hold of locks above the root (`Disk.scan_opened`).  A root to which the way is closed
counts as a root that is not there, and its scan succeeds with no records at all.
-/

namespace FileRoutes

namespace Scan

/-- The second list goes on as the first one, up to a directory in the first one that is closed
because access is denied. -/
inductive SameUpToDenial : List Sight → List Sight → Prop
  | nil : SameUpToDenial [] []
  | cons (x : Sight) {xs ys : List Sight} :
    SameUpToDenial xs ys → SameUpToDenial (x :: xs) (x :: ys)
  | denied (dirs : List Name) (xs ys : List Sight) :
    SameUpToDenial (.closed dirs .accessDenied :: xs) ys

namespace SameUpToDenial

variable {xs xs' ys ys' : List Sight}

theorem refl (xs : List Sight) : SameUpToDenial xs xs := by
  induction xs with
  | nil => exact .nil
  | cons x xs ih => exact .cons x ih

theorem append (h : SameUpToDenial xs ys) (h' : SameUpToDenial xs' ys') :
    SameUpToDenial (xs ++ xs') (ys ++ ys') := by
  induction h with
  | nil => exact h'
  | cons x _ ih => exact .cons x ih
  | denied dirs xs ys => exact .denied dirs (xs ++ xs') (ys ++ ys')

theorem flatMap {α : Type} {es : List α} {f g : α → List Sight}
    (h : ∀ e, SameUpToDenial (f e) (g e)) : SameUpToDenial (es.flatMap f) (es.flatMap g) := by
  induction es with
  | nil => exact .nil
  | cons e es ih =>
    rw [List.flatMap_cons, List.flatMap_cons]
    exact (h e).append ih

end SameUpToDenial

variable {d : Disk} {root : Path} {exclude : Path → Bool} {xs ys : List Sight}

/-! ### Walks -/

theorem walkEntry_opened {below below' : List Name → List Sight} {dirs : List Name}
    (hbelow : ∀ ds, SameUpToDenial (below ds) (below' ds)) (e : Name × Node) :
    SameUpToDenial (walkEntry exclude below dirs e)
      (walkEntry exclude below' dirs (Prod.map id Node.opened e)) := by
  obtain ⟨name, entry, locked⟩ := e
  cases entry with
  | link target => exact .nil
  | file content => exact .refl _
  | directory =>
    simp only [walkEntry, Prod.map, id_eq, Node.opened]
    split_ifs
    · exact .nil
    · exact .refl _
    · exact .cons _ (hbelow _)

/-- **A walk comes across the same on a tree with open locks, up to the first closed directory.** -/
theorem walk_opened (levels : Nat) (dirs : List Name) :
    SameUpToDenial (walk d root exclude levels dirs) (walk d.opened root exclude levels dirs) := by
  induction levels generalizing dirs with
  | zero => exact .nil
  | succ levels ih =>
    rw [walk, walk]
    by_cases hlist : d.list (root.descend dirs) = .error .accessDenied
    · rw [hlist]
      exact .denied dirs _ _
    · rw [Disk.list_opened hlist]
      cases d.list (root.descend dirs) with
      | error f => exact .refl _
      | ok es =>
        simp only [Except.map, List.flatMap_map]
        exact .flatMap (walkEntry_opened ih)

/-! ### Records -/

theorem recognize_opened (d : Disk) (root : Path) (x : Sight) :
    (∃ path, recognize d root x = .error (.scan path .accessDenied)) ∨
      recognize d root x = recognize d.opened root x := by
  cases x with
  | candidate dirs => exact .inr rfl
  | closed dirs f => exact .inr rfl
  | file names =>
    by_cases hname : names.getLast?.any Page.isFileName = true
    · by_cases hread : d.read (root.descend names) = .error .accessDenied
      · exact .inl ⟨root.descend names, by simp only [recognize, hname, hread, if_true]⟩
      · exact .inr (by simp only [recognize, hname, Disk.read_opened hread])
    · exact .inr (by rw [recognize, recognize, if_neg hname, if_neg hname])

theorem collect_opened (h : SameUpToDenial xs ys) :
    (∃ path, collect d root xs = .error (.scan path .accessDenied)) ∨
      collect d root xs = collect d.opened root ys := by
  induction h with
  | nil => exact .inr rfl
  | cons x _ ih =>
    obtain ⟨path, hx⟩ | hx := recognize_opened d root x
    · exact .inl ⟨path, by rw [collect, hx]⟩
    obtain ⟨path, hxs⟩ | hxs := ih
    · -- an error in front of the denial is the error of both
      cases hrec : recognize d root x with
      | error e => exact .inr (by rw [collect, collect, ← hx, hrec])
      | ok r => exact .inl ⟨path, by simp only [collect, hrec, hxs]⟩
    · exact .inr (by rw [collect, collect, hx, hxs])
  | denied dirs xs ys => exact .inl ⟨root.descend dirs, rfl⟩

end Scan

namespace Disk

variable {d : Disk} {root : Path} {exclude : Path → Bool}

theorem sights_opened (h : d.look root ≠ .error .accessDenied) :
    Scan.SameUpToDenial (d.sights root exclude) (d.opened.sights root exclude) := by
  rw [sights, sights, scanStart?, scanStart?, look_opened h, height_opened]
  cases d.look root with
  | error f => exact .nil
  | ok e =>
    obtain ⟨p, n⟩ := e
    cases hdir : n.isDirectory with
    | false =>
      simp only [Except.map, Prod.map, Node.isDirectory_opened, hdir]
      exact .nil
    | true =>
      simp only [Except.map, Prod.map, Node.isDirectory_opened, hdir, if_true]
      exact Scan.walk_opened _ _

/-- **Locks make a scan fail or change nothing**, unless the way to the root is closed: then the
scan succeeds and finds nothing. -/
theorem scan_opened (d : Disk) (root : Path) (exclude : Path → Bool) :
    (d.look root ≠ .error .accessDenied →
      (∃ path, d.scan root exclude = .error (.scan path .accessDenied)) ∨
        d.scan root exclude = d.opened.scan root exclude) ∧
    (d.look root = .error .accessDenied → d.scan root exclude = .ok []) := by
  constructor
  · intro h
    exact Scan.collect_opened (sights_opened h)
  · intro h
    rw [scan, sights, scanStart?, h]
    rfl

/-- A tree with a page below a locked directory. -/
def lockedSite : Disk where
  nodes :=
    let place (names : List String) : Place := names.map fun n => Utf8.encode n.toList
    [(place ["site"], ⟨.directory, true⟩),
      (place ["site", "app"], ⟨.directory, false⟩),
      (place ["site", "app", "page.ts"], ⟨.file (Utf8.encode "defineRoute()".toList), false⟩)]
  home := []

/-- A locked directory below the root makes a scan fail, and the same one above the root empties
it. -/
theorem scan_opened_lockedSite :
    (∃ path, lockedSite.scan (.ofText ".".toList) (fun _ => false) =
      .error (.scan path .accessDenied)) ∧
      lockedSite.scan (.ofText "site/app".toList) (fun _ => false) = .ok [] := by
  have hbelow := (scan_opened lockedSite (.ofText ".".toList) fun _ => false).1 (by decide)
  have habove := (scan_opened lockedSite (.ofText "site/app".toList) fun _ => false).2 rfl
  refine ⟨hbelow.resolve_right fun h => ?_, habove⟩
  -- with its locks open the tree is scanned without an error
  cases h

/-- A lock above the root takes a page away from a scan, and the scan does not fail. -/
theorem scan_belowLock :
    let root := Path.ofText "site/app".toList
    let page : Record Unit := ⟨Path.ofText "site/app/page.ts".toList, "/".toList, ()⟩
    lockedSite.Tree ∧ lockedSite.scan root (fun _ => false) = .ok [] ∧
      lockedSite.opened.scan root (fun _ => false) = .ok [page] := by
  intro root page
  exact ⟨by decide, rfl, rfl⟩

end Disk

end FileRoutes
