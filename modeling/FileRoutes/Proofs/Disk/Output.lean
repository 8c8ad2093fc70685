import FileRoutes.Proofs.Disk.Make

/-!
# Output directories

The files of an output directory have a place of their own (`Disk.OutputAt`), whatever links the
path of the directory goes through.  A directory that has been made is an output directory
(`Disk.outputAt_makeAll`), and making one again changes nothing (`Disk.makeAll_of_outputAt`).

When no link stands at the place of a file, its path leads there and nowhere else
(`Disk.place_of_find_join`).  So a file that is written goes to its place (`Disk.write_join`), and
what is read there is what stands at the place (`Disk.read_join`).
-/

namespace FileRoutes

namespace Path

theorem ancestors_eq (p : Path) : ∃ outer, p.ancestors = p :: outer := by
  rw [ancestors]
  cases p.pieces with
  | nil => exact ⟨[], rfl⟩
  | cons first rest => exact ⟨_, rfl⟩

/-- A file's path does not end in a slash, also when it is the file's name alone. -/
theorem endsInSlash_join_name {p : Path} {n : Name} (hn : n.Proper) :
    (p.join ⟨n⟩).endsInSlash = false := by
  by_cases hp : p.raw = []
  · have habs := isAbsolute_name hn
    rw [endsInSlash, decide_eq_false_iff_not]
    intro h
    refine hn.no_slash (List.mem_of_getLast? ?_)
    simpa [join, habs, hp] using h
  · exact endsInSlash_join hp hn

end Path

namespace Disk

variable {d d' : Disk} {out : Path} {o : Place} {x : Name}

/-! ### Directories for files -/

/-- Files that are put into the directory `out` come to `o`.  The empty path stands for the
directory that relative paths start from. -/
def OutputAt (d : Disk) (out : Path) (o : Place) : Prop :=
  out.raw = [] ∧ o = d.home ∨ ∃ n, d.look out = .ok (o, n) ∧ n.isDirectory = true

theorem Grows.outputAt (h : d.Grows d') (ho : d.OutputAt out o) : d'.OutputAt out o := by
  obtain ⟨hraw, rfl⟩ | ⟨n, hlook, hdir⟩ := ho
  · exact .inl ⟨hraw, h.home.symm⟩
  · exact .inr ⟨n, h.look_directory hlook hdir, hdir⟩

theorem outputAt_of_hasDirectory (h : d.hasDirectory out = true) : ∃ o, d.OutputAt out o := by
  rw [hasDirectory] at h
  split at h
  · rename_i o n hlook
    exact ⟨o, .inr ⟨n, hlook, h⟩⟩
  · cases h

theorem outputAt_of_make (h : d.make out = .ok d') : ∃ o, d'.OutputAt out o := by
  obtain ⟨dir, name, -, ⟨-, path, hpath, hlook⟩, -, -⟩ :=
    MakesOne.put ⟨out, List.mem_singleton_self out, h⟩
  obtain rfl := List.mem_singleton.1 hpath
  exact ⟨_, .inr ⟨_, hlook, rfl⟩⟩

/-- **Files can go into a directory that could be made.** -/
theorem outputAt_makeAll (h : d.makeAll out = (.ok (), d')) : ∃ o, d'.OutputAt out o := by
  obtain ⟨outer, houter⟩ := out.ancestors_eq
  rw [makeAll, houter, makeChain] at h
  split at h
  · rename_i hraw
    exact ⟨d'.home, .inl ⟨hraw, rfl⟩⟩
  · split at h
    · rename_i hmake
      obtain ⟨-, rfl⟩ := Prod.mk.inj h
      exact outputAt_of_make hmake
    · split at h
      · cases h
      · split at h
        · rename_i hmake
          obtain ⟨-, rfl⟩ := Prod.mk.inj h
          exact outputAt_of_make hmake
        · obtain ⟨h, rfl⟩ := Prod.mk.inj h
          split at h
          · exact outputAt_of_hasDirectory ‹_›
          · cases h
    · obtain ⟨h, rfl⟩ := Prod.mk.inj h
      split at h
      · exact outputAt_of_hasDirectory ‹_›
      · cases h

/-- **Where files can go already, nothing is made.** -/
theorem makeAll_of_outputAt (h : d.OutputAt out o) : d.makeAll out = (.ok (), d) := by
  obtain ⟨outer, houter⟩ := out.ancestors_eq
  rw [makeAll, houter, makeChain]
  obtain ⟨hraw, -⟩ | ⟨n, hlook, hdir⟩ := h
  · rw [if_pos hraw]
  · obtain ⟨hraw, hnul, hlen, hway⟩ := find_eq_ok.1 (look_eq_ok.1 hlook).1
    obtain ⟨q', hway'⟩ := hway.unfollowed
    have hmake : d.make out = .error .alreadyExists := by
      rw [make, find_eq_ok.2 ⟨hraw, hnul, hlen, hway'⟩]
    have hhas : d.hasDirectory out = true := by simp [hasDirectory, hlook, hdir]
    rw [if_neg hraw, hmake]
    simp only [hhas, if_true]


/-! ### The place of a file -/

/-- A file with some content, as it is when it is written. -/
def newFile (content : Bytes) : Node := ⟨.file content, false⟩

/-- One more name leads on from an open directory to its place, with any number of links left. -/
theorem walk_name {p : Place} (hx : Path.NamePiece x)
    (hsolid : ∀ n, d.node? (p ++ [x]) = some n → n.Solid) :
    ∃ r, (∀ links, d.walk true links p [x] = r) ∧
      ∀ spot, r = .ok spot → d.enter p = .ok () ∧ spot.place = p ++ [x] := by
  cases hopen : d.enter p with
  | error f =>
    refine ⟨.error f, fun links => ?_, fun _ h => by cases h⟩
    cases links <;> rw [walk, walkWith, hopen]
  | ok u =>
    cases hn : d.node? (p ++ [x]) with
    | none =>
      exact ⟨.ok (.free p x), fun links => walk_of_way (.free hopen hx hn),
        fun spot h => ⟨rfl, Except.ok.inj h ▸ rfl⟩⟩
    | some n =>
      exact ⟨.ok (.taken (p ++ [x])), fun links =>
        walk_of_way (.down hopen hx hn (hsolid n hn) .done),
        fun spot h => ⟨rfl, Except.ok.inj h ▸ rfl⟩⟩

/-- **The path of a file leads to its place, through an open directory.** -/
theorem place_of_find_join (ho : d.OutputAt out o) (hx : x.Proper)
    (hsolid : ∀ n, d.node? (o ++ [x]) = some n → n.Solid) {spot : Spot}
    (h : d.find true (out.join ⟨x⟩) = .ok spot) :
    d.enter o = .ok () ∧ spot.place = o ++ [x] := by
  obtain ⟨r, hwalk, hr⟩ := walk_name hx.namePiece hsolid
  refine hr spot ?_
  obtain ⟨-, -, -, hway⟩ := find_eq_ok.1 h
  have hspot := walk_of_way hway
  obtain ⟨hraw, rfl⟩ | ⟨n, hlook, -⟩ := ho
  · -- a name alone is looked up where relative paths start
    have habs := Path.isAbsolute_name hx
    have hjoin : out.join ⟨x⟩ = ⟨x⟩ := by simp [Path.join, habs, hraw]
    have hsteps : Path.steps ⟨x⟩ = [x] := by
      simp [Path.steps, Path.pieces, splitOn_of_notMem hx.no_slash, hx.ne_nil]
    rw [hjoin, Path.origin, habs, hsteps] at hspot
    rw [← hspot]
    exact (hwalk _).symm
  · obtain ⟨hraw, -, -, hto, -⟩ := find_eq_of_look hlook
    have hext := Path.extends_join hraw hx
    rw [hext.steps, Path.origin, hext.isAbsolute] at hspot
    rw [← hspot]
    exact (walk_append hwalk hto).symm

/-! ### Writing and reading -/

theorem write_eq_ok {path : Path} {content : Bytes} (h : d.write path content = .ok d') :
    ∃ spot, d.find true path = .ok spot ∧ d' = d.put spot.place (newFile content) ∧
      ∀ n, d.node? spot.place = some n → ∃ c, n = newFile c := by
  rw [write] at h
  cases hfind : d.find true path with
  | error f => simp [hfind] at h
  | ok spot =>
    simp only [hfind] at h
    split_ifs at h
    refine ⟨spot, rfl, ?_⟩
    cases spot with
    | free dir name =>
      obtain ⟨-, -, -, hway⟩ := find_eq_ok.1 hfind
      obtain ⟨-, -, hnone⟩ := hway.of_free
      exact ⟨(Except.ok.inj h).symm, fun n hn => by cases hnone.symm.trans hn⟩
    | taken p =>
      simp only at h
      split at h
      · rename_i c locked hn
        cases locked with
        | true => cases h
        | false =>
          refine ⟨(Except.ok.inj h).symm, fun n hn' => ⟨c, ?_⟩⟩
          exact Option.some.inj (hn'.symm.trans hn)
      · cases h

theorem read_eq_ok {path : Path} {content : Bytes} :
    d.read path = .ok content ↔ ∃ p, d.look path = .ok (p, newFile content) := by
  rw [read]
  cases d.look path with
  | error f => simp
  | ok r =>
    obtain ⟨p, entry, locked⟩ := r
    cases locked <;> cases entry <;> simp [newFile]

/-- A file can be put at a place: its directory is open, and nothing stands there so far, or an
open file. -/
structure Writable (d : Disk) (p : Place) : Prop where
  entered : d.enter p.dropLast = .ok ()
  replaced : ∀ n, d.node? p = some n → ∃ c, n = newFile c

theorem Writable.ne_nil {p : Place} (h : d.Writable p) : p ≠ [] := by
  rintro rfl
  obtain ⟨c, hc⟩ := h.replaced _ node?_nil
  cases hc

theorem Writable.grows_put {p : Place} (h : d.Writable p) (content : Bytes) :
    d.Grows (d.put p (newFile content)) := by
  refine Disk.grows_put h.ne_nil fun n hn => ?_
  obtain ⟨c, rfl⟩ := h.replaced n hn
  exact .inr ⟨⟨c, rfl⟩, content, rfl⟩

section File

variable (ho : d.OutputAt out o) (hx : x.Proper)
  (hsolid : ∀ n, d.node? (o ++ [x]) = some n → n.Solid) {content : Bytes}

include ho hx hsolid

/-- **A file that is written goes to its place, and its path leads to it.** -/
theorem write_join (h : d.write (out.join ⟨x⟩) content = .ok d') :
    d' = d.put (o ++ [x]) (newFile content) ∧ d.Writable (o ++ [x]) ∧
      d'.look (out.join ⟨x⟩) = .ok (o ++ [x], newFile content) := by
  obtain ⟨spot, hfind, rfl, hreplaced⟩ := write_eq_ok h
  obtain ⟨hopen, hplace⟩ := place_of_find_join ho hx hsolid hfind
  rw [hplace] at hreplaced ⊢
  have hwritable : d.Writable (o ++ [x]) := ⟨by rwa [List.dropLast_concat], hreplaced⟩
  have hput := node?_put d hwritable.ne_nil (newFile content) (o ++ [x])
  rw [if_pos rfl] at hput
  refine ⟨rfl, hwritable, ?_⟩
  rw [← hplace] at hput ⊢
  refine (hplace ▸ hwritable.grows_put content).look_of_find hfind hput
    (by simp [Node.Solid, newFile]) ?_
  simp [Path.endsInSlash_join_name hx]

/-- **What is read is what stands at the place of the file.** -/
theorem read_join (h : d.read (out.join ⟨x⟩) = .ok content) :
    d.Writable (o ++ [x]) ∧ d.node? (o ++ [x]) = some (newFile content) ∧
      d.look (out.join ⟨x⟩) = .ok (o ++ [x], newFile content) := by
  obtain ⟨p, hlook⟩ := read_eq_ok.1 h
  obtain ⟨hfind, hn, -⟩ := look_eq_ok.1 hlook
  obtain ⟨hopen, hplace⟩ := place_of_find_join ho hx hsolid hfind
  obtain rfl : p = o ++ [x] := hplace
  refine ⟨⟨by rwa [List.dropLast_concat], fun n hn' => ⟨content, ?_⟩⟩, hn, hlook⟩
  exact Option.some.inj (hn'.symm.trans hn)

/-- A file that could be written can be read. -/
theorem read_of_write (h : d.write (out.join ⟨x⟩) content = .ok d')
    (hn : d.node? (o ++ [x]) = some (newFile content)) : d.read (out.join ⟨x⟩) = .ok content := by
  obtain ⟨spot, hfind, -, -⟩ := write_eq_ok h
  obtain ⟨-, hplace⟩ := place_of_find_join ho hx hsolid hfind
  refine read_eq_ok.2 ⟨spot.place, ?_⟩
  refine (Grows.refl d).look_of_find hfind (hplace ▸ hn) (by simp [Node.Solid, newFile]) ?_
  simp [Path.endsInSlash_join_name hx]

end File

end Disk

end FileRoutes
