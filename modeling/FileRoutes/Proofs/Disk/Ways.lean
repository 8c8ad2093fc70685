import FileRoutes.Proofs.Disk.Resolve

/-!
# Ways through a disk

A path that leads somewhere has a way there (`Disk.Way`): one rule for each kind of piece that a
walk can meet, in the order in which it meets them.  Walks and ways are the same thing
(`Disk.walk_eq_ok_iff`), so what a walk arrives at can be studied by induction on its way.

- `Disk.Way.of_free`: a free place lies in an open directory, and nothing stands there.
- `Disk.Way.unfollowed`: a way that follows a link at its end passes through a place that the path
  leads to when the link is not followed.
- `Disk.Way.mem_of_free`, `Disk.Way.prefix_place`: without links, a free place has a piece of the
  path as its name, and a way without `..` only goes down.
-/

namespace FileRoutes

/-- The place that a path leads to, free or not. -/
def Spot.place : Spot → Place
  | .taken p => p
  | .free dir name => dir ++ [name]

/-- A walk takes the piece for a name. -/
structure Path.NamePiece (piece : Bytes) : Prop where
  ne_dot : piece ≠ Path.dot
  ne_dotDot : piece ≠ Path.dotDot
  short : piece.length ≤ maxNameLength

theorem Name.Proper.namePiece {n : Name} (h : n.Proper) : Path.NamePiece n :=
  ⟨h.ne_dot, h.ne_dotDot, h.short⟩

/-- The node is no link, so a walk goes on from it by its next piece. -/
def Node.Solid (n : Node) : Prop := ∀ t, n.entry ≠ .link t

instance (n : Node) : Decidable n.Solid :=
  match h : n.entry with
  | .link t => .isFalse fun hsolid => hsolid t h
  | .file c => .isTrue fun t ht => by cases h.symm.trans ht
  | .directory => .isTrue fun t ht => by cases h.symm.trans ht

theorem Node.Solid.of_isDirectory {n : Node} (h : n.isDirectory = true) : n.Solid :=
  fun t ht => by simp [Node.isDirectory, ht] at h

namespace Disk

/-- No symbolic links stand on the disk. -/
def Linkless (d : Disk) : Prop := ∀ p n, d.node? p = some n → n.Solid

theorem linkless_of_nodes {d : Disk} (h : ∀ e ∈ d.nodes, e.2.Solid) : d.Linkless := by
  intro p n hn
  rw [node?] at hn
  split_ifs at hn
  · exact Option.some.inj hn ▸ .of_isDirectory rfl
  · obtain ⟨e, he, rfl⟩ := Option.map_eq_some_iff.1 hn
    exact h e (List.mem_of_find?_eq_some he)

/-- The way of a walk from a directory along some pieces, through so many links at most. -/
inductive Way (d : Disk) (follow : Bool) : Nat → Place → List Bytes → Spot → Prop
  | done {links : Nat} {p : Place} : Way d follow links p [] (.taken p)
  | stay {links : Nat} {p : Place} {s : List Bytes} {spot : Spot} (entered : d.enter p = .ok ())
      (rest : Way d follow links p s spot) : Way d follow links p (Path.dot :: s) spot
  | up {links : Nat} {p : Place} {s : List Bytes} {spot : Spot} (entered : d.enter p = .ok ())
      (rest : Way d follow links p.dropLast s spot) : Way d follow links p (Path.dotDot :: s) spot
  | free {links : Nat} {p : Place} {x : Bytes} (entered : d.enter p = .ok ())
      (name : Path.NamePiece x) (empty : d.node? (p ++ [x]) = none) :
      Way d follow links p [x] (.free p x)
  | down {links : Nat} {p : Place} {x : Bytes} {s : List Bytes} {spot : Spot} {n : Node}
      (entered : d.enter p = .ok ()) (name : Path.NamePiece x)
      (node : d.node? (p ++ [x]) = some n) (solid : n.Solid)
      (rest : Way d follow links (p ++ [x]) s spot) : Way d follow links p (x :: s) spot
  | link {links : Nat} {p : Place} {x : Bytes} {t : Path} {locked : Bool}
      (entered : d.enter p = .ok ()) (name : Path.NamePiece x)
      (node : d.node? (p ++ [x]) = some ⟨.link t, locked⟩) (unfollowed : follow = false) :
      Way d follow links p [x] (.taken (p ++ [x]))
  | along {links : Nat} {p : Place} {x : Bytes} {s : List Bytes} {spot : Spot} {t : Path}
      {locked : Bool} (entered : d.enter p = .ok ()) (name : Path.NamePiece x)
      (node : d.node? (p ++ [x]) = some ⟨.link t, locked⟩) (followed : s = [] → follow = true)
      (target : t.raw ≠ []) (rest : Way d follow links (t.origin p) (t.linkSteps ++ s) spot) :
      Way d follow (links + 1) p (x :: s) spot

variable {d : Disk} {follow : Bool} {links : Nat} {p : Place} {s : List Bytes} {spot : Spot}

/-! ### Walks and ways -/

theorem way_of_walkWith {onLink : Place → List Bytes → Except Fault Spot}
    (hlink : ∀ p s, onLink p s = .ok spot → ∃ l, links = l + 1 ∧ Way d follow l p s spot)
    (h : d.walkWith onLink follow p s = .ok spot) : Way d follow links p s spot := by
  induction s generalizing p with
  | nil =>
    obtain rfl : Spot.taken p = spot := by simpa [walkWith] using h
    exact .done
  | cons x s ih =>
    rw [walkWith] at h
    cases hopen : d.enter p with
    | error f => simp [hopen] at h
    | ok u =>
      simp only [hopen] at h
      by_cases hdot : x = Path.dot
      · rw [if_pos hdot] at h
        exact hdot ▸ .stay hopen (ih h)
      by_cases hdots : x = Path.dotDot
      · rw [if_neg hdot, if_pos hdots] at h
        exact hdots ▸ .up hopen (ih h)
      by_cases hlen : maxNameLength < x.length
      · rw [if_neg hdot, if_neg hdots, if_pos hlen] at h
        cases h
      rw [if_neg hdot, if_neg hdots, if_neg hlen] at h
      have hname : Path.NamePiece x := ⟨hdot, hdots, Nat.not_lt.1 hlen⟩
      cases hn : d.node? (p ++ [x]) with
      | none =>
        simp only [hn] at h
        split_ifs at h with hs
        obtain rfl := Except.ok.inj h
        exact hs ▸ .free hopen hname hn
      | some n =>
        obtain ⟨entry, locked⟩ := n
        simp only [hn] at h
        cases entry with
        | file c => exact .down hopen hname hn (by simp [Node.Solid]) (ih h)
        | directory => exact .down hopen hname hn (by simp [Node.Solid]) (ih h)
        | link t =>
          simp only at h
          split_ifs at h with hlast hraw
          · obtain ⟨rfl, hfollow⟩ := hlast
            obtain rfl := Except.ok.inj h
            exact .link hopen hname hn hfollow
          · obtain ⟨l, rfl, hway⟩ := hlink _ _ h
            exact .along hopen hname hn (fun hs => by simpa [hs] using hlast) hraw hway

theorem way_of_walk (h : d.walk follow links p s = .ok spot) : Way d follow links p s spot := by
  induction links generalizing p s with
  | zero => exact way_of_walkWith (fun _ _ h => by cases h) h
  | succ links ih => exact way_of_walkWith (fun _ _ h => ⟨links, rfl, ih h⟩) h

/-- One step of a walk, whatever number of links is left. -/
theorem walk_cons (x : Bytes) (hopen : d.enter p = .ok ()) :
    d.walk follow links p (x :: s) =
      if x = Path.dot then d.walk follow links p s
      else if x = Path.dotDot then d.walk follow links p.dropLast s
      else if maxNameLength < x.length then .error .nameTooLong
      else
        match d.node? (p ++ [x]) with
        | none => if s = [] then .ok (.free p x) else .error .notFound
        | some ⟨.link target, _⟩ =>
          if s = [] ∧ follow = false then .ok (.taken (p ++ [x]))
          else if target.raw = [] then .error .notFound
          else
            match links with
            | 0 => .error .tooManyLinks
            | links + 1 => d.walk follow links (target.origin p) (target.linkSteps ++ s)
        | some _ => d.walk follow links (p ++ [x]) s := by
  cases links <;> rewrite [walk, walkWith, hopen] <;> rfl

theorem walk_of_way (h : Way d follow links p s spot) : d.walk follow links p s = .ok spot := by
  induction h with
  | done => cases ‹Nat› <;> rfl
  | stay hopen _ ih => rw [walk_cons _ hopen, if_pos rfl, ih]
  | up hopen _ ih => rw [walk_cons _ hopen, if_neg (by decide), if_pos rfl, ih]
  | free hopen hname hn =>
    simp [walk_cons _ hopen, hname.ne_dot, hname.ne_dotDot, Nat.not_lt.2 hname.short, hn]
  | @down _ p x _ _ n hopen hname hn hsolid _ ih =>
    rw [walk_cons _ hopen, if_neg hname.ne_dot, if_neg hname.ne_dotDot,
      if_neg (Nat.not_lt.2 hname.short), hn]
    obtain ⟨entry, locked⟩ := n
    cases entry with
    | file c => exact ih
    | directory => exact ih
    | link t => exact absurd rfl (hsolid t)
  | link hopen hname hn hfollow =>
    simp [walk_cons _ hopen, hname.ne_dot, hname.ne_dotDot, Nat.not_lt.2 hname.short, hn, hfollow]
  | @along _ _ _ s _ _ _ hopen hname hn hfollow hraw _ ih =>
    have hlast : ¬(s = [] ∧ follow = false) := fun h => by simp [hfollow h.1] at h
    simp only [walk_cons _ hopen, if_neg hname.ne_dot, if_neg hname.ne_dotDot,
      if_neg (Nat.not_lt.2 hname.short), hn, if_neg hlast, if_neg hraw, ih]

/-- **Walks arrive where ways lead.** -/
theorem walk_eq_ok_iff : d.walk follow links p s = .ok spot ↔ Way d follow links p s spot :=
  ⟨way_of_walk, walk_of_way⟩

/-! ### Where ways lead -/

namespace Way

theorem of_free {dir : Place} {name : Name} (h : Way d follow links p s (.free dir name)) :
    d.enter dir = .ok () ∧ Path.NamePiece name ∧ d.node? (dir ++ [name]) = none := by
  generalize hspot : Spot.free dir name = spot at h
  induction h with
  | done => cases hspot
  | stay _ _ ih => exact ih hspot
  | up _ _ ih => exact ih hspot
  | free hopen hname hn =>
    obtain ⟨rfl, rfl⟩ := Spot.free.inj hspot
    exact ⟨hopen, hname, hn⟩
  | down _ _ _ _ _ ih => exact ih hspot
  | link _ _ _ _ => cases hspot
  | along _ _ _ _ _ _ ih => exact ih hspot

/-- A way that follows links goes through a place that the path leads to without following a link
at its end. -/
theorem unfollowed {q : Place} (h : Way d true links p s (.taken q)) :
    ∃ q', Way d false links p s (.taken q') := by
  generalize hspot : Spot.taken q = spot at h
  induction h with
  | done => exact ⟨_, .done⟩
  | stay hopen _ ih => exact (ih hspot).imp fun _ h => .stay hopen h
  | up hopen _ ih => exact (ih hspot).imp fun _ h => .up hopen h
  | free _ _ _ => cases hspot
  | down hopen hname hn hsolid _ ih => exact (ih hspot).imp fun _ h => .down hopen hname hn hsolid h
  | link _ _ _ hfollow => cases hfollow
  | @along _ _ _ s _ _ _ hopen hname hn _ hraw _ ih =>
    by_cases hs : s = []
    · subst hs
      exact ⟨_, .link hopen hname hn rfl⟩
    · exact (ih hspot).imp fun _ h => .along hopen hname hn (fun h => absurd h hs) hraw h

/-! ### Without links -/

/-- Without links, a free place has a piece of the path as its name. -/
theorem mem_of_free {dir : Place} {x : Name} (hlinkless : d.Linkless)
    (h : Way d follow links p s (.free dir x)) : x ∈ s := by
  generalize hspot : Spot.free dir x = spot at h
  induction h with
  | done => cases hspot
  | stay _ _ ih => exact List.mem_cons_of_mem _ (ih hspot)
  | up _ _ ih => exact List.mem_cons_of_mem _ (ih hspot)
  | free _ _ _ =>
    obtain ⟨-, rfl⟩ := Spot.free.inj hspot
    exact List.mem_cons_self
  | down _ _ _ _ _ ih => exact List.mem_cons_of_mem _ (ih hspot)
  | link _ _ _ _ => cases hspot
  | along _ _ hn _ _ _ _ => exact absurd rfl (hlinkless _ _ hn _)

/-- Without `..` and links, a way only goes down. -/
theorem prefix_place (hlinkless : d.Linkless) (hs : Path.dotDot ∉ s)
    (h : Way d true links p s spot) : p <+: spot.place := by
  induction h with
  | done => exact List.prefix_rfl
  | stay _ _ ih => exact ih fun h => hs (List.mem_cons_of_mem _ h)
  | up _ _ _ => exact absurd List.mem_cons_self hs
  | free _ _ _ => exact List.prefix_append _ _
  | down _ _ _ _ _ ih =>
    exact (List.prefix_append _ _).trans (ih fun h => hs (List.mem_cons_of_mem _ h))
  | link _ _ _ hfollow => cases hfollow
  | along _ _ hn _ _ _ _ => exact absurd rfl (hlinkless _ _ hn _)

end Way

end Disk

end FileRoutes
