import FileRoutes.Proofs.Scan.Collect
import FileRoutes.Proofs.Scan.Visited

/-!
# What a scan finds

A page file (`Scan.PageFile`) is a regular file with the name of a page that lies directly in a
visited directory.  A scan of a root that leads to a directory

* finds the page files that declare a route, each once, and says of each what
  `Scan.Describes` says;
* fails exactly when a visited directory or a page file in one cannot be opened, or when a page
  that declares a route has no record;
* asks about the directories in visited directories whose own names are not private
  (`Scan.Candidate`), each once, and about all of them unless it fails.

`Disk.scan_spec` states the three together.
-/

namespace FileRoutes

namespace Scan

/-- The last name is that of a page file. -/
def NamesPage (names : List Name) : Prop :=
  ∃ name ∈ Page.fileNames, names.getLast? = some name

/-- The text of a file, read with replacement characters, declares a route. -/
abbrev Declares (content : Bytes) : Prop :=
  Declaration.declares (Utf8.decodeLossy content) = true

section Definitions

variable (d : Disk) (p : Place) (exclude : Path → Bool)

/-- A regular file with the name of a page lies where `names` lead to, directly in a visited
directory. -/
structure PageFile (names : List Name) (content : Bytes) : Prop where
  visited : Visited d p exclude names.dropLast
  named : NamesPage names
  file : ∃ n, d.node? (p ++ names) = some n ∧ n.entry = .file content

/-- A page file that declares a route. -/
def DeclaringPage (names : List Name) : Prop :=
  ∃ content, PageFile d p exclude names content ∧ Declares content

end Definitions

variable {d : Disk} {root : Path} {p : Place} {exclude : Path → Bool} {n₀ : Node}
  {names : List Name}

theorem PageFile.ne_nil {content : Bytes} (h : PageFile d p exclude names content) :
    names ≠ [] := by
  rintro rfl
  obtain ⟨_, -, h⟩ := h.named
  cases h

theorem any_isFileName : names.getLast?.any Page.isFileName = true ↔ NamesPage names := by
  simp [NamesPage, Option.any_eq_true, Page.isFileName, and_comm]

section Tree

variable (hd : d.Tree) (hroot : d.look root = .ok (p, n₀)) {n : Node} {content : Bytes}
  (hn : d.node? (p ++ names) = some n) (hfile : n.entry = .file content)
  (hclear : Clear d root p names)

include hd hroot hn hfile hclear

/-! ### One page -/

theorem recognize_file (hname : NamesPage names) :
    Refused d root p names ∧ (∃ e, recognize d root (.file names) = .error e) ∨
      ¬Refused d root p names ∧ d.look (root.descend names) = .ok (p ++ names, n) ∧
        recognize d root (.file names) =
          if Declares content then (record root names).map some else .ok none := by
  rw [recognize, if_pos (any_isFileName.2 hname)]
  obtain ⟨href, f, hread⟩ | ⟨hopen, hread, hlook⟩ := read_of_clear hd hroot hn hfile hclear
  · exact .inl ⟨href, _, by rw [hread]⟩
  · refine .inr ⟨hopen, hlook, ?_⟩
    simp only [hread]
    split_ifs
    · cases record root names <;> rfl
    · rfl

/-- A page file fails a scan when it cannot be opened, or when it declares a route that has no
record. -/
theorem exists_recognize_eq_error (hname : NamesPage names) :
    (∃ e, recognize d root (.file names) = .error e) ↔
      Refused d root p names ∨ Declares content ∧ Unroutable names.dropLast := by
  obtain ⟨href, herr⟩ | ⟨hopen, -, h⟩ := recognize_file hd hroot hn hfile hclear hname
  · exact iff_of_true herr (.inl href)
  · rw [h]
    split_ifs with hdecl
    · obtain ⟨r, hr, hrec⟩ | ⟨hun, e, hrec⟩ := record_cases root names
      · simp [hrec, hopen, hr.not_unroutable, Except.map]
      · exact iff_of_true ⟨e, by rw [hrec]; rfl⟩ (.inr ⟨hdecl, hun⟩)
    · simp [hopen, hdecl]

/-- What a file adds to the records is what it declares. -/
theorem recognize_eq_some {r : Record Unit} (h : recognize d root (.file names) = .ok (some r)) :
    NamesPage names ∧ Declares content ∧ Describes root names r ∧
      d.look (root.descend names) = .ok (p ++ names, n) := by
  by_cases hname : NamesPage names
  · obtain ⟨-, e, herr⟩ | ⟨-, hlook, h'⟩ := recognize_file hd hroot hn hfile hclear hname
    · cases herr.symm.trans h
    rw [h'] at h
    -- a record can only come from a page that can be read and declares a route
    by_cases hdecl : Declares content
    · rw [if_pos hdecl] at h
      obtain ⟨r', hr, hrec⟩ | ⟨-, e, hrec⟩ := record_cases root names
      · obtain rfl : r' = r := by simpa [hrec, Except.map] using h
        exact ⟨hname, hdecl, hr, hlook⟩
      · simp [hrec, Except.map] at h
    · simp [if_neg hdecl] at h
  · rw [recognize, if_neg (mt any_isFileName.1 hname)] at h
    simp at h

end Tree

/-! ### A whole scan -/

section Scan

variable (hd : d.Tree) (hroot : d.look root = .ok (p, n₀)) (hdir : n₀.isDirectory = true)

include hd hroot hdir

theorem page_mem_sights {content : Bytes} (hpage : PageFile d p exclude names content)
    (hclear : Clear d root p names) : .file names ∈ d.sights root exclude := by
  obtain ⟨n, hn, hfile⟩ := hpage.file
  exact (file_mem_sights hd hroot hdir).2
    ⟨hpage.ne_nil, hpage.visited, hclear, n, content, hn, hfile⟩

/-- **The causes of failure.** -/
theorem exists_scan_eq_error :
    (∃ e, d.scan root exclude = .error e) ↔
      (∃ dirs, Visited d p exclude dirs ∧ Refused d root p dirs) ∨
        (∃ names content, PageFile d p exclude names content ∧ Refused d root p names) ∨
          ∃ names, DeclaringPage d p exclude names ∧ Unroutable names.dropLast := by
  rw [Disk.scan, exists_collect_eq_error]
  constructor
  · rintro ⟨x, hmem, e, he⟩
    cases x with
    | candidate dirs => cases he
    | closed dirs f =>
      obtain ⟨hvis, -, href⟩ := (closed_mem_sights hd hroot hdir).1 ⟨f, hmem⟩
      exact .inl ⟨dirs, hvis, href⟩
    | file names =>
      obtain ⟨-, hvis, hclear, n, content, hn, hfile⟩ := (file_mem_sights hd hroot hdir).1 hmem
      by_cases hname : NamesPage names
      · have hpage : PageFile d p exclude names content := ⟨hvis, hname, n, hn, hfile⟩
        obtain href | ⟨hdecl, hun⟩ :=
          (exists_recognize_eq_error hd hroot hn hfile hclear hname).1 ⟨e, he⟩
        · exact .inr (.inl ⟨names, content, hpage, href⟩)
        · exact .inr (.inr ⟨names, ⟨content, hpage, hdecl⟩, hun⟩)
      · rw [recognize, if_neg (mt any_isFileName.1 hname)] at he
        cases he
  · intro h
    -- either the walk comes to a directory that cannot be opened, or every way is clear
    by_cases hopen : ∀ ds, Visited d p exclude ds → Clear d root p ds → ¬Refused d root p ds
    · have hpage {names content} (hpage : PageFile d p exclude names content)
          (h : Refused d root p names ∨ Declares content ∧ Unroutable names.dropLast) :
          ∃ x ∈ d.sights root exclude, ∃ e, recognize d root x = .error e := by
        obtain ⟨n, hn, hfile⟩ := hpage.file
        have hclear := clear_of_visited_dropLast hd hopen hpage.visited
        exact ⟨.file names, page_mem_sights hd hroot hdir hpage hclear,
          (exists_recognize_eq_error hd hroot hn hfile hclear hpage.named).2 h⟩
      obtain ⟨dirs, hvis, href⟩ | ⟨_, _, h, href⟩ | ⟨_, ⟨_, h, hdecl⟩, hun⟩ := h
      · exact absurd href (hopen dirs hvis (clear_of_visited hd hopen hvis))
      · exact hpage h (.inl href)
      · exact hpage h (.inr ⟨hdecl, hun⟩)
    · push Not at hopen
      obtain ⟨dirs, hvis, hclear, href⟩ := hopen
      obtain ⟨f, hmem⟩ := (closed_mem_sights hd hroot hdir).2 ⟨hvis, hclear, href⟩
      exact ⟨_, hmem, _, rfl⟩

/-- When a scan succeeds, every way to a visited directory is clear. -/
theorem clear_of_scan_eq_ok {rs : List (Record Unit)} (h : d.scan root exclude = .ok rs)
    (hvis : Visited d p exclude names.dropLast) : Clear d root p names := by
  refine clear_of_visited_dropLast hd (fun ds hvis _ href => ?_) hvis
  obtain ⟨e, he⟩ := (exists_scan_eq_error hd hroot hdir).2 (.inl ⟨ds, hvis, href⟩)
  cases he.symm.trans h

/-- **The records of a scan.** -/
theorem scan_eq_ok {rs : List (Record Unit)} (h : d.scan root exclude = .ok rs) :
    ∃ pages : List (List Name), pages.Nodup ∧
      (∀ names, names ∈ pages ↔ DeclaringPage d p exclude names) ∧
      List.Forall₂ (fun names r => Describes root names r ∧
        ∃ n, d.look r.source = .ok (p ++ names, n)) pages rs := by
  obtain ⟨pages, hsub, hmem, hpages⟩ := forall₂_collect h
  refine ⟨pages, ((nodup_sights hd).sublist hsub).of_map _, fun names => ?_,
    hpages.imp fun names r ⟨hfile, hr⟩ => ?_⟩
  · rw [hmem]
    constructor
    · rintro ⟨hsight, r, hr⟩
      obtain ⟨-, hvis, hclear, n, content, hn, hfile⟩ := (file_mem_sights hd hroot hdir).1 hsight
      obtain ⟨hname, hdecl, -, -⟩ := recognize_eq_some hd hroot hn hfile hclear hr
      exact ⟨content, ⟨hvis, hname, n, hn, hfile⟩, hdecl⟩
    · rintro ⟨content, hpage, hdecl⟩
      have hclear := clear_of_scan_eq_ok hd hroot hdir h hpage.visited
      obtain ⟨n, hn, hfile⟩ := hpage.file
      have hsight := page_mem_sights hd hroot hdir hpage hclear
      refine ⟨hsight, ?_⟩
      -- the scan has gone through this page without an error
      have hok : ¬∃ e, recognize d root (.file names) = .error e := fun he => by
        obtain ⟨e, he⟩ := exists_collect_eq_error.2 ⟨_, hsight, he⟩
        cases he.symm.trans h
      obtain ⟨-, he⟩ | ⟨-, -, hrec⟩ := recognize_file hd hroot hn hfile hclear hpage.named
      · exact absurd he hok
      · rw [if_pos hdecl] at hrec
        obtain ⟨r, -, hr⟩ | ⟨-, e, he⟩ := record_cases root names
        · exact ⟨r, by rw [hrec, hr]; rfl⟩
        · exact absurd ⟨e, by rw [hrec, he]; rfl⟩ hok
  · obtain ⟨-, -, hclear, n, content, hn, hfile⟩ := (file_mem_sights hd hroot hdir).1 hfile
    obtain ⟨-, -, hdesc, hlook⟩ := recognize_eq_some hd hroot hn hfile hclear hr
    exact ⟨hdesc, n, hdesc.source ▸ hlook⟩

/-- **The directories that a scan asks about.** -/
theorem scanAsks_eq :
    ∃ asked : List (List Name), asked.Nodup ∧ d.scanAsks root exclude = asked.map Path.ofNames ∧
      (∀ names ∈ asked, Candidate d p exclude names) ∧
      ∀ rs, d.scan root exclude = .ok rs →
        ∀ names, Candidate d p exclude names → names ∈ asked := by
  have hmem (names) : names ∈ (d.sights root exclude).filterMap Sight.candidate? ↔
      Candidate d p exclude names ∧ Clear d root p names := by
    rw [← candidate_mem_sights hd hroot hdir, mem_filterMap_candidate?]
  have hnodup : ((d.sights root exclude).filterMap Sight.candidate?).Nodup :=
    (nodup_sights hd).filterMap fun x y names hx hy => by
      rw [candidate?_eq_some.1 hx, candidate?_eq_some.1 hy]
  refine ⟨_, hnodup.sublist prefix_asked.sublist, rfl, fun names h => ?_, fun rs h names hc => ?_⟩
  · exact ((hmem names).1 (prefix_asked.subset h)).1
  · rw [asked_eq_of_collect h, hmem]
    exact ⟨hc, clear_of_scan_eq_ok hd hroot hdir h hc.visited⟩

end Scan

end Scan

namespace Disk

/-- **A scan finds exactly the declared pages, fails exactly where something visited stands in its
way, and asks about exactly the directories it could go into.** -/
theorem scan_spec {d : Disk} {root : Path} {p : Place} {n₀ : Node} (hd : d.Tree)
    (hroot : d.look root = .ok (p, n₀)) (hdir : n₀.isDirectory = true) (exclude : Path → Bool) :
    (∀ rs, d.scan root exclude = .ok rs →
      ∃ pages : List (List Name), pages.Nodup ∧
        (∀ names, names ∈ pages ↔ Scan.DeclaringPage d p exclude names) ∧
        List.Forall₂ (fun names r => Scan.Describes root names r ∧
          ∃ n, d.look r.source = .ok (p ++ names, n)) pages rs) ∧
    ((∃ e, d.scan root exclude = .error e) ↔
      (∃ dirs, Scan.Visited d p exclude dirs ∧ Scan.Refused d root p dirs) ∨
        (∃ names content, Scan.PageFile d p exclude names content ∧
          Scan.Refused d root p names) ∨
          ∃ names, Scan.DeclaringPage d p exclude names ∧ Scan.Unroutable names.dropLast) ∧
    ∃ asked : List (List Name), asked.Nodup ∧ d.scanAsks root exclude = asked.map Path.ofNames ∧
      (∀ names ∈ asked, Scan.Candidate d p exclude names) ∧
      ∀ rs, d.scan root exclude = .ok rs →
        ∀ names, Scan.Candidate d p exclude names → names ∈ asked :=
  ⟨fun _ h => Scan.scan_eq_ok hd hroot hdir h, Scan.exists_scan_eq_error hd hroot hdir,
    Scan.scanAsks_eq hd hroot hdir⟩

/-- A tree in which a private and an old directory are locked. -/
def lockedAside : Disk where
  nodes :=
    let place (names : List String) : Place := names.map fun n => Utf8.encode n.toList
    [(place ["app"], ⟨.directory, false⟩),
      (place ["app", "_lib"], ⟨.directory, true⟩),
      (place ["app", "old"], ⟨.directory, true⟩),
      (place ["app", "user"], ⟨.directory, false⟩),
      (place ["app", "user", "[id]"], ⟨.directory, false⟩),
      (place ["app", "user", "[id]", "page.ts"],
        ⟨.file (Utf8.encode "defineRoute()".toList), false⟩)]
  home := []

/-- Locked directories that are not visited do not stand in the way of a scan. -/
theorem scan_spec_lockedAside :
    let exclude : Path → Bool := fun q => q = Path.ofText "old".toList
    let root := Path.ofText "app".toList
    let page : Record Unit :=
      ⟨Path.ofText "app/user/[id]/page.ts".toList, "/user/[id]".toList, ()⟩
    lockedAside.scan root exclude = .ok [page] ∧
      ∃ pages : List (List Name), pages.Nodup ∧
        (∀ names, names ∈ pages ↔ Scan.DeclaringPage lockedAside root.steps exclude names) ∧
        pages.length = 1 := by
  intro exclude root page
  have hscan : lockedAside.scan root exclude = .ok [page] := by
    have h : (lockedAside.scan root exclude).toOption = some [page] := by decide +kernel
    cases hs : lockedAside.scan root exclude with
    | error e => simp [hs, Except.toOption] at h
    | ok rs => rw [hs] at h; exact congrArg Except.ok (Option.some.inj h)
  have hlook : lockedAside.look root = .ok (root.steps, ⟨.directory, false⟩) := rfl
  obtain ⟨pages, hnodup, hmem, hpages⟩ := (scan_spec (by decide) hlook rfl exclude).1 _ hscan
  exact ⟨hscan, pages, hnodup, hmem, hpages.length_eq⟩

end Disk

end FileRoutes
