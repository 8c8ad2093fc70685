import FileRoutes.Proofs.Disk.Resolve
import FileRoutes.Proofs.Scan.Walk

/-!
# The directories a scan visits

A directory below a root is visited (`Scan.Visited`) when no name on the way down to it is private
and no beginning of that way is excluded.  A walk from the root comes to the visited directories
whose way is clear: all directories that they lie in can be opened (`Scan.leads_iff`).  The first
obstacle on a way is met before what is behind it, so the way to every visited directory is clear
when every visited directory that a walk comes to can be opened (`Scan.clear_of_visited`).

What a scan comes across follows: `Scan.closed_mem_sights`, `Scan.file_mem_sights` and
`Scan.candidate_mem_sights`.
-/

namespace FileRoutes

namespace Disk

variable {d : Disk} {root : Path} {exclude : Path → Bool} {p : Place} {n : Node}

theorem scanStart?_eq_some :
    d.scanStart? root = some (p, n) ↔ d.look root = .ok (p, n) ∧ n.isDirectory = true := by
  rw [scanStart?]
  split
  · rename_i q m hlook
    rw [hlook]
    simp only [Option.ite_none_right_eq_some, Option.some.injEq, Prod.mk.injEq, Except.ok.injEq]
    constructor
    · rintro ⟨hdir, rfl, rfl⟩
      exact ⟨⟨rfl, rfl⟩, hdir⟩
    · rintro ⟨⟨rfl, rfl⟩, hdir⟩
      exact ⟨hdir, rfl, rfl⟩
  · rename_i f hlook
    simp [hlook]

theorem sights_of_look (hlook : d.look root = .ok (p, n))
    (hdir : n.isDirectory = true) :
    d.sights root exclude = Scan.walk d root exclude (d.height + 1) [] := by
  rw [sights, scanStart?_eq_some.2 ⟨hlook, hdir⟩]

end Disk

namespace Scan

variable (d : Disk) (root : Path) (p : Place) (exclude : Path → Bool)

/-- The directory that `dirs` leads to from `p` is not left out: it is `p` itself, or no name on
the way is private and no beginning of the way is excluded. -/
structure Visited (dirs : List Name) : Prop where
  directory : d.directoryAt (p ++ dirs) = true
  not_private : ∀ n ∈ dirs, isPrivate n = false
  not_excluded : ∀ q, q ≠ [] → q <+: dirs → exclude (Path.ofNames q) = false

/-- A directory that lies directly in a visited one and has a name that is not private. -/
structure Candidate (names : List Name) : Prop where
  visited : Visited d p exclude names.dropLast
  directory : d.directoryAt (p ++ names) = true
  named : ∃ name, names.getLast? = some name ∧ isPrivate name = false

/-- What `names` lead to from the root, which stands at `p`, cannot be opened: it is locked, or
its path is too long. -/
def Refused (names : List Name) : Prop :=
  maxPathLength < (root.descend names).raw.length ∨
    ∃ n, d.node? (p ++ names) = some n ∧ n.locked = true

/-- All directories on the way down, the last one excepted, can be opened. -/
def Clear (dirs : List Name) : Prop := ∀ q, q <+: dirs → q ≠ dirs → ¬Refused d root p q

variable {d root p exclude} {dirs : List Name} {n₀ : Node}

/-! ### Ways -/

theorem visited_nil (h : d.directoryAt p = true) : Visited d p exclude [] where
  directory := by rwa [List.append_nil]
  not_private := by simp
  not_excluded q hq hpre := absurd (List.prefix_nil.1 hpre) hq

theorem Visited.of_prefix (hd : d.Tree) {q : List Name} (hpre : q <+: dirs)
    (h : Visited d p exclude dirs) : Visited d p exclude q := by
  refine ⟨?_, fun n hn => h.not_private n (hpre.subset hn), fun q' hne hpre' =>
    h.not_excluded q' hne (hpre'.trans hpre)⟩
  obtain ⟨r, rfl⟩ := hpre
  by_cases hr : r = []
  · simpa [hr] using h.directory
  · obtain ⟨n, hn, -⟩ := Disk.directoryAt_iff.1 h.directory
    rw [← List.append_assoc] at hn
    exact Disk.directoryAt_of_append hd hr hn

theorem visited_concat (hd : d.Tree) {x : Name} :
    Visited d p exclude (dirs ++ [x]) ↔
      Visited d p exclude dirs ∧ d.directoryAt (p ++ (dirs ++ [x])) = true ∧
        isPrivate x = false ∧ exclude (Path.ofNames (dirs ++ [x])) = false := by
  constructor
  · intro h
    exact ⟨h.of_prefix hd (List.prefix_append _ _), h.directory, h.not_private x (by simp),
      h.not_excluded _ (by simp) List.prefix_rfl⟩
  · rintro ⟨h, hdir, hpriv, hex⟩
    refine ⟨hdir, fun n hn => ?_, fun q hq hpre => ?_⟩
    · obtain hn | hn := List.mem_append.1 hn
      · exact h.not_private n hn
      · rwa [List.mem_singleton.1 hn]
    · obtain rfl | hpre := List.prefix_concat_iff.1 hpre
      · exact hex
      · exact h.not_excluded q hq hpre

theorem clear_nil : Clear d root p [] := fun _ hpre hne => absurd (List.prefix_nil.1 hpre) hne

theorem clear_concat {x : Name} :
    Clear d root p (dirs ++ [x]) ↔ Clear d root p dirs ∧ ¬Refused d root p dirs := by
  constructor
  · intro h
    have hlast : dirs ≠ dirs ++ [x] := by simp
    refine ⟨fun q hpre _ => h q (hpre.trans (List.prefix_append _ _)) ?_, h dirs
      (List.prefix_append _ _) hlast⟩
    rintro rfl
    exact hlast (hpre.eq_of_length_le (by simp)).symm
  · rintro ⟨h, hopen⟩ q hpre hne
    obtain rfl | hpre := List.prefix_concat_iff.1 hpre
    · exact absurd rfl hne
    · by_cases hq : q = dirs
      · rwa [hq]
      · exact h q hpre hq

/-- Every directory on a clear way is open. -/
theorem Clear.openWay (hd : d.Tree) {names : List Name} {n : Node}
    (hn : d.node? (p ++ names) = some n) (h : Clear d root p names) : d.OpenWay p names := by
  rintro q x r rfl
  rw [← List.append_assoc] at hn
  obtain ⟨m, hm, hmdir⟩ := Disk.directoryAt_iff.1 (Disk.directoryAt_of_append hd (by simp) hn)
  refine Disk.enter_eq_ok.2 ⟨m, hm, hmdir, ?_⟩
  cases hlock : m.locked with
  | false => rfl
  | true => exact absurd (.inr ⟨m, hm, hlock⟩) (h q (List.prefix_append _ _) (by simp))

/-- The way to every visited directory is clear when every one that can be come to can be opened:
the first obstacle on a way is a visited directory itself. -/
theorem clear_of_visited (hd : d.Tree)
    (hopen : ∀ ds, Visited d p exclude ds → Clear d root p ds → ¬Refused d root p ds)
    (hvis : Visited d p exclude dirs) : Clear d root p dirs := by
  induction dirs using List.reverseRecOn with
  | nil => exact clear_nil
  | append_singleton ds x ih =>
    have hvis' := hvis.of_prefix hd (List.prefix_append _ _)
    exact clear_concat.2 ⟨ih hvis', hopen ds hvis' (ih hvis')⟩

theorem clear_of_visited_dropLast (hd : d.Tree)
    (hopen : ∀ ds, Visited d p exclude ds → Clear d root p ds → ¬Refused d root p ds)
    {names : List Name} (hvis : Visited d p exclude names.dropLast) : Clear d root p names := by
  obtain rfl | ⟨ds, x, rfl⟩ := List.eq_nil_or_concat' names
  · exact clear_nil
  · rw [List.dropLast_concat] at hvis
    have hclear := clear_of_visited hd hopen hvis
    exact clear_concat.2 ⟨hclear, hopen ds hvis hclear⟩

/-! ### Listing and reading -/

theorem refused_iff {names : List Name} {n : Node} (hn : d.node? (p ++ names) = some n) :
    Refused d root p names ↔
      maxPathLength < (root.descend names).raw.length ∨ n.locked = true := by
  simp [Refused, hn]

section Tree

variable (hd : d.Tree) (hroot : d.look root = .ok (p, n₀))

include hd hroot

/-- On a clear way a directory is listed exactly when it can be opened. -/
theorem list_of_clear (hdir : d.directoryAt (p ++ dirs) = true) (hclear : Clear d root p dirs) :
    Refused d root p dirs ∧ (∃ f, d.list (root.descend dirs) = .error f) ∨
      ¬Refused d root p dirs ∧ d.list (root.descend dirs) = .ok (d.inside (p ++ dirs)) := by
  obtain ⟨n, hn, hndir⟩ := Disk.directoryAt_iff.1 hdir
  have hproper := fun m hm => Disk.proper_of_node? hd hn m (List.mem_append_right p hm)
  rw [refused_iff hn, Disk.list_descend hroot (hclear.openWay hd hn) hproper hn hndir]
  by_cases hlen : maxPathLength < (root.descend dirs).raw.length
  · exact .inl ⟨.inl hlen, .nameTooLong, if_pos hlen⟩
  · cases hlock : n.locked with
    | true => exact .inl ⟨.inr rfl, .accessDenied, by simp [hlen]⟩
    | false => exact .inr ⟨by simp [hlen], by simp [hlen]⟩

/-- On a clear way a file is read exactly when it can be opened. -/
theorem read_of_clear {names : List Name} {n : Node} {content : Bytes}
    (hn : d.node? (p ++ names) = some n) (hfile : n.entry = .file content)
    (hclear : Clear d root p names) :
    Refused d root p names ∧ (∃ f, d.read (root.descend names) = .error f) ∨
      ¬Refused d root p names ∧ d.read (root.descend names) = .ok content ∧
        d.look (root.descend names) = .ok (p ++ names, n) := by
  have hproper := fun m hm => Disk.proper_of_node? hd hn m (List.mem_append_right p hm)
  have hopen := hclear.openWay hd hn
  rw [refused_iff hn, Disk.read_descend hroot hopen hproper hn hfile]
  by_cases hlen : maxPathLength < (root.descend names).raw.length
  · exact .inl ⟨.inl hlen, .nameTooLong, if_pos hlen⟩
  · cases hlock : n.locked with
    | true => exact .inl ⟨.inr rfl, .accessDenied, by simp [hlen]⟩
    | false =>
      refine .inr ⟨by simp [hlen], by simp [hlen], ?_⟩
      exact Disk.look_descend hroot hopen hproper hn (by simp [hfile]) (Nat.not_lt.1 hlen)

/-- In a directory with a clear way one sees what stands in it, or that it cannot be listed. -/
theorem mem_here (hdir : d.directoryAt (p ++ dirs) = true) (hclear : Clear d root p dirs)
    {x : Sight} :
    x ∈ here d root dirs ↔
      Refused d root p dirs ∧ (∃ f, d.list (root.descend dirs) = .error f ∧ x = .closed dirs f) ∨
        ¬Refused d root p dirs ∧ ∃ name n, d.node? (p ++ (dirs ++ [name])) = some n ∧
          sightOf? dirs (name, n) = some x := by
  unfold here
  obtain ⟨href, f, hlist⟩ | ⟨hopen, hlist⟩ := list_of_clear hd hroot hdir hclear
  · simp [hlist, href]
  · simp [hlist, hopen, List.mem_filterMap, Disk.mem_inside hd]

theorem enters_iff (hvis : Visited d p exclude dirs) (hclear : Clear d root p dirs)
    {ds : List Name} :
    Enters d root exclude dirs ds ↔
      ∃ x, ds = dirs ++ [x] ∧ Visited d p exclude ds ∧ Clear d root p ds := by
  obtain ⟨href, f, hlist⟩ | ⟨hopen, hlist⟩ := list_of_clear hd hroot hvis.directory hclear
  · -- what cannot be listed is not gone through, and it blocks every way behind it
    constructor
    · rintro ⟨_, _, h, _⟩
      cases hlist.symm.trans h
    · rintro ⟨x, rfl, -, h⟩
      exact absurd href (clear_concat.1 h).2
  · constructor
    · rintro ⟨_, ⟨x, n⟩, h, hmem, henter, rfl⟩
      obtain rfl := Except.ok.inj (hlist.symm.trans h)
      have hn := (Disk.mem_inside hd).1 hmem
      rw [List.append_assoc] at hn
      refine ⟨x, rfl, (visited_concat hd).2 ⟨hvis, ?_, henter.not_private, henter.not_excluded⟩,
        clear_concat.2 ⟨hclear, hopen⟩⟩
      exact Disk.directoryAt_iff.2 ⟨n, hn, Node.isDirectory_iff.2 henter.directory⟩
    · rintro ⟨x, rfl, hvis', -⟩
      obtain ⟨-, hdir, hpriv, hex⟩ := (visited_concat hd).1 hvis'
      obtain ⟨n, hn, hndir⟩ := Disk.directoryAt_iff.1 hdir
      rw [← List.append_assoc] at hn
      exact ⟨_, (x, n), hlist, (Disk.mem_inside hd).2 hn,
        ⟨Node.isDirectory_iff.1 hndir, hpriv, hex⟩, rfl⟩

/-- **A walk from the root comes to the visited directories with a clear way.** -/
theorem leads_iff (hdir : d.directoryAt p = true) :
    Leads d root exclude [] dirs ↔ Visited d p exclude dirs ∧ Clear d root p dirs := by
  constructor
  · intro h
    induction h with
    | refl => exact ⟨visited_nil hdir, clear_nil⟩
    | tail _ henter ih =>
      obtain ⟨-, -, h⟩ := (enters_iff hd hroot ih.1 ih.2).1 henter
      exact h
  · -- the last step of a way is taken last, so this goes from the end of the names
    rintro ⟨hvis, hclear⟩
    induction dirs using List.reverseRecOn with
    | nil => exact .refl
    | append_singleton ds x ih =>
      have hvis' := hvis.of_prefix hd (List.prefix_append _ _)
      have hclear' := (clear_concat.1 hclear).1
      exact .tail (ih hvis' hclear') ((enters_iff hd hroot hvis' hclear').2 ⟨x, rfl, hvis, hclear⟩)

/-! ### What a scan comes across -/

/-- A scan comes across what can be seen in the visited directories with a clear way. -/
theorem mem_sights (hdir : n₀.isDirectory = true) {x : Sight} :
    x ∈ d.sights root exclude ↔
      ∃ ds, (Visited d p exclude ds ∧ Clear d root p ds) ∧ x ∈ here d root ds := by
  have hp : d.directoryAt p = true :=
    Disk.directoryAt_iff.2 ⟨n₀, (Disk.find_eq_of_look hroot).2.2.2.2, hdir⟩
  rw [Disk.sights_of_look hroot hdir, mem_walk]
  · simp only [leads_iff hd hroot hp]
  · -- no directory that is come to lies deeper than the deepest node
    intro ds h
    obtain ⟨n, hn, -⟩ := Disk.directoryAt_iff.1 ((leads_iff hd hroot hp).1 h).1.directory
    have hlen := Disk.length_le_height hn
    simp only [List.length_append, List.length_nil] at hlen ⊢
    omega

omit hroot in
theorem nodup_sights : (d.sights root exclude).Nodup := by
  unfold Disk.sights
  split
  · exact List.nodup_nil
  · exact nodup_walk hd _ _

theorem closed_mem_sights (hdir : n₀.isDirectory = true) :
    (∃ f, .closed dirs f ∈ d.sights root exclude) ↔
      Visited d p exclude dirs ∧ Clear d root p dirs ∧ Refused d root p dirs := by
  simp only [mem_sights hd hroot hdir]
  constructor
  · rintro ⟨f, ds, ⟨hvis, hclear⟩, h⟩
    obtain ⟨href, f', -, h⟩ | ⟨-, _, _, -, h⟩ := (mem_here hd hroot hvis.directory hclear).1 h
    · obtain ⟨rfl, -⟩ := Sight.closed.inj h
      exact ⟨hvis, hclear, href⟩
    · exact absurd h sightOf?_ne_closed
  · rintro ⟨hvis, hclear, href⟩
    obtain ⟨-, f, hlist⟩ | ⟨hopen, -⟩ := list_of_clear hd hroot hvis.directory hclear
    · exact ⟨f, dirs, ⟨hvis, hclear⟩,
        (mem_here hd hroot hvis.directory hclear).2 (.inl ⟨href, f, hlist, rfl⟩)⟩
    · exact absurd href hopen

/-- Everything else stands in a visited directory, and the way to it is clear. -/
theorem entry_mem_sights (hdir : n₀.isDirectory = true) {x : Sight}
    (hx : ∀ ds f, x ≠ .closed ds f) :
    x ∈ d.sights root exclude ↔
      ∃ ds name n, Visited d p exclude ds ∧ Clear d root p (ds ++ [name]) ∧
        d.node? (p ++ (ds ++ [name])) = some n ∧ sightOf? ds (name, n) = some x := by
  rw [mem_sights hd hroot hdir]
  constructor
  · rintro ⟨ds, ⟨hvis, hclear⟩, h⟩
    obtain ⟨-, f, -, rfl⟩ | ⟨hopen, name, n, hn, h⟩ :=
      (mem_here hd hroot hvis.directory hclear).1 h
    · exact absurd rfl (hx ds f)
    · exact ⟨ds, name, n, hvis, clear_concat.2 ⟨hclear, hopen⟩, hn, h⟩
  · rintro ⟨ds, name, n, hvis, hclear, hn, h⟩
    obtain ⟨hclear, hopen⟩ := clear_concat.1 hclear
    exact ⟨ds, ⟨hvis, hclear⟩,
      (mem_here hd hroot hvis.directory hclear).2 (.inr ⟨hopen, name, n, hn, h⟩)⟩

theorem file_mem_sights (hdir : n₀.isDirectory = true) {names : List Name} :
    .file names ∈ d.sights root exclude ↔
      names ≠ [] ∧ Visited d p exclude names.dropLast ∧ Clear d root p names ∧
        ∃ n content, d.node? (p ++ names) = some n ∧ n.entry = .file content := by
  rw [entry_mem_sights hd hroot hdir (by simp)]
  simp only [sightOf?_eq_file]
  constructor
  · rintro ⟨ds, name, n, hvis, hclear, hn, rfl, content, hfile⟩
    exact ⟨by simp, by simpa using hvis, hclear, n, content, hn, hfile⟩
  · rintro ⟨hne, hvis, hclear, n, content, hn, hfile⟩
    obtain ⟨ds, name, rfl⟩ := (List.eq_nil_or_concat' names).resolve_left hne
    exact ⟨ds, name, n, by simpa using hvis, hclear, hn, rfl, content, hfile⟩

theorem candidate_mem_sights (hdir : n₀.isDirectory = true) {names : List Name} :
    .candidate names ∈ d.sights root exclude ↔
      Candidate d p exclude names ∧ Clear d root p names := by
  rw [entry_mem_sights hd hroot hdir (by simp)]
  simp only [sightOf?_eq_candidate]
  constructor
  · rintro ⟨ds, name, n, hvis, hclear, hn, rfl, hndir, hpriv⟩
    have hdirectory := Disk.directoryAt_iff.2 ⟨n, hn, Node.isDirectory_iff.2 hndir⟩
    exact ⟨⟨by simpa using hvis, hdirectory, name, by simp, hpriv⟩, hclear⟩
  · rintro ⟨⟨hvis, hdirectory, name, hname, hpriv⟩, hclear⟩
    obtain ⟨ds, rfl⟩ := List.getLast?_eq_some_iff.1 hname
    obtain ⟨n, hn, hndir⟩ := Disk.directoryAt_iff.1 hdirectory
    exact ⟨ds, name, n, by simpa using hvis, hclear, hn, rfl, Node.isDirectory_iff.1 hndir, hpriv⟩

end Tree

end Scan

end FileRoutes
