import FileRoutes.Proofs.Disk.Ways

/-!
# Disks that grow

A disk grows (`Disk.Grows`) when nothing on it goes away or becomes something else: new nodes come
up, and files get other contents.  Putting a node at a free place, or a file in place of a file, is
growth (`Disk.grows_put`).

A path that leads somewhere leads there on every disk that the first one has grown into, and one
that leads to a free place leads to what has been put there (`Disk.Grows.look_of_find`).  In the
other direction, a path on a disk without links finds nothing new where something stood before, if
it is written without `..` (`Disk.Grows.look_back`) or no directories are new
(`Disk.Grows.look_back_of_open`).
-/

namespace FileRoutes

namespace Node

/-- The nodes are the same, or both are files. -/
def Alike (n m : Node) : Prop := n = m ∨ (∃ c, n.entry = .file c) ∧ ∃ c, m.entry = .file c

variable {n m k : Node}

theorem Alike.refl (n : Node) : n.Alike n := .inl rfl

theorem Alike.trans (h : n.Alike m) (h' : m.Alike k) : n.Alike k := by
  obtain rfl | ⟨hn, hm⟩ := h
  · exact h'
  · obtain rfl | ⟨-, hk⟩ := h'
    · exact .inr ⟨hn, hm⟩
    · exact .inr ⟨hn, hk⟩

theorem Alike.isDirectory (h : n.Alike m) : n.isDirectory = m.isDirectory := by
  obtain rfl | ⟨⟨c, hn⟩, c', hm⟩ := h
  · rfl
  · rw [Node.isDirectory, Node.isDirectory, hn, hm]
    rfl

theorem Alike.eq_of_isDirectory (h : n.Alike m) (hdir : n.isDirectory = true) : m = n := by
  obtain rfl | ⟨⟨c, hn⟩, -⟩ := h
  · rfl
  · simp [Node.isDirectory, hn] at hdir

theorem Alike.solid (h : n.Alike m) (hn : n.Solid) : m.Solid := by
  obtain rfl | ⟨-, c, hm⟩ := h
  · exact hn
  · simp [Solid, hm]

theorem Alike.eq_of_link (h : n.Alike m) {t : Path} (hn : n.entry = .link t) : m = n := by
  obtain rfl | ⟨⟨c, hc⟩, -⟩ := h
  · rfl
  · cases hn.symm.trans hc

end Node

namespace Disk

/-- What stands on `d` stands on `d'`, though files may have got other contents. -/
structure Grows (d d' : Disk) : Prop where
  home : d'.home = d.home
  kept : ∀ p n, d.node? p = some n → ∃ m, d'.node? p = some m ∧ n.Alike m

variable {d d' d'' : Disk}

theorem Grows.refl (d : Disk) : d.Grows d := ⟨rfl, fun _ n h => ⟨n, h, .refl n⟩⟩

theorem Grows.trans (h : d.Grows d') (h' : d'.Grows d'') : d.Grows d'' := by
  refine ⟨h'.home.trans h.home, fun p n hn => ?_⟩
  obtain ⟨m, hm, hnm⟩ := h.kept p n hn
  obtain ⟨k, hk, hmk⟩ := h'.kept p m hm
  exact ⟨k, hk, hnm.trans hmk⟩

/-- **Putting something where nothing stands, or a file in place of a file, is growth.** -/
theorem grows_put {p : Place} {m : Node} (hp : p ≠ [])
    (h : ∀ n, d.node? p = some n → n.Alike m) : d.Grows (d.put p m) := by
  refine ⟨rfl, fun q n hn => ?_⟩
  rw [node?_put d hp]
  split_ifs with hq
  · exact ⟨m, rfl, h n (hq ▸ hn)⟩
  · exact ⟨n, hn, .refl n⟩

/-- What could be entered stays open. -/
theorem Grows.enter (h : d.Grows d') {p : Place} (hp : d.enter p = .ok ()) :
    d'.enter p = .ok () := by
  obtain ⟨n, hn, hdir, hlock⟩ := enter_eq_ok.1 hp
  obtain ⟨m, hm, halike⟩ := h.kept p n hn
  obtain rfl := halike.eq_of_isDirectory hdir
  exact enter_eq_ok.2 ⟨_, hm, hdir, hlock⟩

/-! ### Where paths lead afterwards -/

section Paths

variable {follow : Bool} {links : Nat} {p : Place} {s : List Bytes} {spot : Spot} {path : Path}
  {m : Node}

/-- A way goes on to what stands at its end after the growth, when that is no link. -/
theorem Grows.way (h : d.Grows d') (hm : d'.node? spot.place = some m) (hsolid : m.Solid)
    (hway : Way d follow links p s spot) : Way d' true links p s (.taken spot.place) := by
  induction hway with
  | done => exact .done
  | stay hopen _ ih => exact .stay (h.enter hopen) (ih hm)
  | up hopen _ ih => exact .up (h.enter hopen) (ih hm)
  | free hopen hname _ => exact .down (h.enter hopen) hname hm hsolid .done
  | down hopen hname hn hnsolid _ ih =>
    obtain ⟨n', hn', halike⟩ := h.kept _ _ hn
    exact .down (h.enter hopen) hname hn' (halike.solid hnsolid) (ih hm)
  | link _ _ hn _ =>
    -- the place at the end holds a link now as before
    obtain ⟨n', hn', halike⟩ := h.kept _ _ hn
    obtain rfl := halike.eq_of_link rfl
    obtain rfl := Option.some.inj (hm.symm.trans hn')
    exact absurd rfl (hsolid _)
  | along hopen hname hn _ hraw _ ih =>
    obtain ⟨n', hn', halike⟩ := h.kept _ _ hn
    obtain rfl := halike.eq_of_link rfl
    exact .along (h.enter hopen) hname hn' (fun _ => rfl) hraw (ih hm)

theorem find_eq_ok :
    d.find follow path = .ok spot ↔
      path.raw ≠ [] ∧ 0 ∉ path.raw ∧ path.raw.length ≤ maxPathLength ∧
        Way d follow maxLinks (path.origin d.home) path.steps spot := by
  rw [← walk_eq_ok_iff, find]
  by_cases h₁ : path.raw = []
  · simp [h₁]
  by_cases h₂ : 0 ∈ path.raw
  · simp [h₁, h₂]
  by_cases h₃ : maxPathLength < path.raw.length
  · simp [h₁, h₂, h₃, Nat.not_le.2 h₃]
  · simp [h₁, h₂, h₃, Nat.not_lt.1 h₃]

/-- What a path leads to when links are followed. -/
theorem look_eq_ok {n : Node} :
    d.look path = .ok (p, n) ↔
      d.find true path = .ok (.taken p) ∧ d.node? p = some n ∧
        (path.endsInSlash = true → n.isDirectory = true) := by
  constructor
  · intro h
    rw [Disk.look] at h
    split at h
    · cases h
    · cases h
    · rename_i q hfind
      split at h
      · cases h
      · rename_i m hm
        split at h
        · cases h
        · rename_i hslash
          obtain ⟨rfl, rfl⟩ := Prod.mk.inj (Except.ok.inj h)
          exact ⟨hfind, hm, fun hs => by simpa [hs] using hslash⟩
  · rintro ⟨hfind, hn, hslash⟩
    have hfits : ¬(path.endsInSlash = true ∧ n.isDirectory = false) := fun h => by
      simp [hslash h.1] at h
    simp only [Disk.look, hfind, hn, if_neg hfits]

/-- **A path leads to what stands at its place after the growth.** -/
theorem Grows.look_of_find (h : d.Grows d') (hfind : d.find follow path = .ok spot)
    (hm : d'.node? spot.place = some m) (hsolid : m.Solid)
    (hslash : path.endsInSlash = true → m.isDirectory = true) :
    d'.look path = .ok (spot.place, m) := by
  obtain ⟨hraw, hnul, hlen, hway⟩ := find_eq_ok.1 hfind
  refine look_eq_ok.2 ⟨find_eq_ok.2 ⟨hraw, hnul, hlen, ?_⟩, hm, hslash⟩
  rw [h.home]
  exact h.way hm hsolid hway

theorem Grows.look (h : d.Grows d') {n : Node} (hlook : d.look path = .ok (p, n))
    (hm : d'.node? p = some m) (hsolid : m.Solid) (halike : n.Alike m) :
    d'.look path = .ok (p, m) := by
  obtain ⟨hfind, -, hslash⟩ := look_eq_ok.1 hlook
  exact h.look_of_find hfind hm hsolid fun hs => halike.isDirectory ▸ hslash hs

/-- Directories stay where paths lead to them. -/
theorem Grows.look_directory (h : d.Grows d') {n : Node} (hlook : d.look path = .ok (p, n))
    (hdir : n.isDirectory = true) : d'.look path = .ok (p, n) := by
  obtain ⟨-, hn, -⟩ := look_eq_ok.1 hlook
  obtain ⟨m, hm, halike⟩ := h.kept p n hn
  obtain rfl := halike.eq_of_isDirectory hdir
  exact h.look hlook hm (.of_isDirectory hdir) halike

end Paths

/-! ### Looking back -/

section Back

variable {links : Nat} {p q : Place} {s : List Bytes} {spot : Spot}

/-- What lies on the way to something that stood there before stood there before, too. -/
theorem Grows.node?_of_prefix (h : d.Grows d') (hd : d.Tree) {n n' : Node}
    (hq : d.node? q = some n) (hpre : p <+: q) (hp : d'.node? p = some n') :
    ∃ m, d.node? p = some m ∧ m.Alike n' := by
  have hm : ∃ m, d.node? p = some m := by
    obtain ⟨r, rfl⟩ := hpre
    by_cases hr : r = []
    · exact ⟨n, by simpa [hr] using hq⟩
    · obtain ⟨m, hm, -⟩ := directoryAt_iff.1 (directoryAt_of_append hd hr hq)
      exact ⟨m, hm⟩
  obtain ⟨m, hm⟩ := hm
  obtain ⟨m', hm', halike⟩ := h.kept p m hm
  exact ⟨m, hm, Option.some.inj (hp.symm.trans hm') ▸ halike⟩

theorem Grows.way_back (h : d.Grows d') (hd : d.Tree) (hlinkless : d'.Linkless)
    (hs : Path.dotDot ∉ s) {n : Node} (hq : d.node? spot.place = some n)
    (hway : Way d' true links p s spot) : Way d true links p s spot := by
  -- a directory on the way is one that stood there before
  have hback {p : Place} (hpre : p <+: spot.place) (hp : d'.enter p = .ok ()) :
      d.enter p = .ok () := by
    obtain ⟨n', hn', hdir, hlock⟩ := enter_eq_ok.1 hp
    obtain ⟨m, hm, halike⟩ := h.node?_of_prefix hd hq hpre hn'
    obtain rfl := halike.eq_of_isDirectory (halike.isDirectory.trans hdir)
    exact enter_eq_ok.2 ⟨_, hm, hdir, hlock⟩
  have hpre := hway.prefix_place hlinkless hs
  induction hway with
  | done => exact .done
  | stay hopen hrest ih =>
    have hs' := fun h => hs (List.mem_cons_of_mem _ h)
    exact .stay (hback hpre hopen) (ih hs' hq hback (hrest.prefix_place hlinkless hs'))
  | up _ _ _ => exact absurd List.mem_cons_self hs
  | free hopen _ hn =>
    obtain ⟨m, hm, -⟩ := h.kept _ _ hq
    cases hn.symm.trans hm
  | down hopen hname hn hsolid hrest ih =>
    have hs' := fun h => hs (List.mem_cons_of_mem _ h)
    have hpre' := hrest.prefix_place hlinkless hs'
    obtain ⟨m, hm, halike⟩ := h.node?_of_prefix hd hq hpre' hn
    have hmsolid : m.Solid := fun t ht => by
      obtain rfl := halike.eq_of_link ht
      exact hsolid t ht
    exact .down (hback hpre hopen) hname hm hmsolid (ih hs' hq hback hpre')
  | link _ _ _ hfollow => cases hfollow
  | along _ _ hn _ _ _ _ => exact absurd rfl (hlinkless _ _ hn _)

/-- What a path leads to on a disk that has grown it led to before, if it went the same way. -/
theorem Grows.look_of_way_back (h : d.Grows d') {path : Path} {n m : Node}
    (hlook : d'.look path = .ok (p, m)) (hn : d.node? p = some n)
    (hback : ∀ {links start s}, Way d' true links start s (.taken p) →
      s = path.steps → Way d true links start s (.taken p)) : d.look path = .ok (p, n) := by
  obtain ⟨hfind, hm, hslash⟩ := look_eq_ok.1 hlook
  obtain ⟨hraw, hnul, hlen, hway⟩ := find_eq_ok.1 hfind
  refine look_eq_ok.2 ⟨find_eq_ok.2 ⟨hraw, hnul, hlen, ?_⟩, hn, fun hs => ?_⟩
  · rw [← h.home]
    exact hback hway rfl
  · obtain ⟨m', hm', halike⟩ := h.kept p n hn
    obtain rfl := Option.some.inj (hm.symm.trans hm')
    rw [halike.isDirectory]
    exact hslash hs

/-- **A path without `..` that leads to something old on a disk that has grown led there
before.** -/
theorem Grows.look_back (h : d.Grows d') (hd : d.Tree) (hlinkless : d'.Linkless) {path : Path}
    (hpath : Path.dotDot ∉ path.steps) {n m : Node} (hlook : d'.look path = .ok (p, m))
    (hn : d.node? p = some n) : d.look path = .ok (p, n) :=
  h.look_of_way_back hlook hn fun hway hs => h.way_back hd hlinkless (hs ▸ hpath) hn hway

end Back

end Disk

end FileRoutes
