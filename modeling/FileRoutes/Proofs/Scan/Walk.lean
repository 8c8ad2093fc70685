import FileRoutes.Proofs.Disk.Tree
import FileRoutes.Scan
import Mathlib.Logic.Relation

/-!
# What a walk comes across

A walk goes from a directory into those of its directories that are not private and not excluded
(`Scan.Enters`), so it comes across what can be seen in the directories that are reached in this
way, and nothing else (`Scan.mem_walk`), and across nothing twice (`Scan.nodup_walk`).

Both rest on what is met at a single entry (`Scan.mem_walkEntry`, `Scan.nodup_walkEntry`).
-/

namespace FileRoutes

namespace Scan

/-- The names that lead to a sight. -/
def Sight.names : Sight → List Name
  | .candidate dirs => dirs
  | .closed dirs _ => dirs
  | .file names => names

/-- What an entry of the directory that `dirs` leads to shows. -/
def sightOf? (dirs : List Name) (e : Name × Node) : Option Sight :=
  match e.2.entry with
  | .link _ => none
  | .file _ => some (.file (dirs ++ [e.1]))
  | .directory => if isPrivate e.1 then none else some (.candidate (dirs ++ [e.1]))

/-- The entry is a directory that a walk goes into. -/
structure Entered (exclude : Path → Bool) (dirs : List Name) (e : Name × Node) : Prop where
  directory : e.2.entry = .directory
  not_private : isPrivate e.1 = false
  not_excluded : exclude (Path.ofNames (dirs ++ [e.1])) = false

variable (d : Disk) (root : Path) (exclude : Path → Bool)

/-- What can be seen in the directory that `dirs` leads to. -/
def here (dirs : List Name) : List Sight :=
  match d.list (root.descend dirs) with
  | .error f => [.closed dirs f]
  | .ok es => es.filterMap (sightOf? dirs)

/-- A walk goes from one directory into another one. -/
def Enters (dirs dirs' : List Name) : Prop :=
  ∃ es e, d.list (root.descend dirs) = .ok es ∧ e ∈ es ∧ Entered exclude dirs e ∧
    dirs' = dirs ++ [e.1]

/-- A walk comes from one directory to another one. -/
abbrev Leads : List Name → List Name → Prop := Relation.ReflTransGen (Enters d root exclude)

variable {d root exclude} {dirs : List Name} {e : Name × Node} {x : Sight}

/-! ### One entry -/

theorem names_of_sightOf? (h : sightOf? dirs e = some x) :
    x.names = dirs ++ [e.1] := by
  unfold sightOf? at h
  split at h
  · cases h
  · obtain rfl := Option.some.inj h
    rfl
  · split_ifs at h
    obtain rfl := Option.some.inj h
    rfl

theorem sightOf?_eq_file {names : List Name} :
    sightOf? dirs e = some (.file names) ↔
      names = dirs ++ [e.1] ∧ ∃ content, e.2.entry = .file content := by
  obtain ⟨name, entry, locked⟩ := e
  cases entry <;> simp [sightOf?, eq_comm (a := names)]

theorem sightOf?_eq_candidate {names : List Name} :
    sightOf? dirs e = some (.candidate names) ↔
      names = dirs ++ [e.1] ∧ e.2.entry = .directory ∧ isPrivate e.1 = false := by
  obtain ⟨name, entry, locked⟩ := e
  cases entry <;> simp [sightOf?, eq_comm (a := names), and_comm]

theorem sightOf?_ne_closed {names : List Name} {f : Fault} :
    sightOf? dirs e ≠ some (.closed names f) := by
  obtain ⟨name, entry, locked⟩ := e
  cases entry <;> simp [sightOf?]

theorem mem_walkEntry {below : List Name → List Sight} :
    x ∈ walkEntry exclude below dirs e ↔
      sightOf? dirs e = some x ∨ Entered exclude dirs e ∧ x ∈ below (dirs ++ [e.1]) := by
  obtain ⟨name, entry, locked⟩ := e
  have hentered : Entered exclude dirs (name, ⟨entry, locked⟩) ↔ entry = .directory ∧
      isPrivate name = false ∧ exclude (Path.ofNames (dirs ++ [name])) = false :=
    ⟨fun h => ⟨h.directory, h.not_private, h.not_excluded⟩, fun h => ⟨h.1, h.2.1, h.2.2⟩⟩
  rw [hentered]
  cases entry with
  | link target => simp [walkEntry, sightOf?]
  | file content => simp [walkEntry, sightOf?, eq_comm (a := x)]
  | directory =>
    by_cases hpriv : isPrivate name = true
    · simp [walkEntry, sightOf?, hpriv]
    · by_cases hex : exclude (Path.ofNames (dirs ++ [name])) = true
      · simp [walkEntry, sightOf?, hpriv, hex, eq_comm (a := x)]
      · simp [walkEntry, sightOf?, hpriv, hex, eq_comm (a := x)]

theorem nodup_walkEntry {below : List Name → List Sight}
    (hcandidate : .candidate (dirs ++ [e.1]) ∉ below (dirs ++ [e.1]))
    (hbelow : (below (dirs ++ [e.1])).Nodup) : (walkEntry exclude below dirs e).Nodup := by
  simp only [walkEntry]
  split
  · exact List.nodup_nil
  · exact List.nodup_singleton _
  · split_ifs
    · exact List.nodup_nil
    · exact List.nodup_singleton _
    · exact List.nodup_cons.2 ⟨hcandidate, hbelow⟩

/-! ### What is met -/

theorem mem_walk_succ {levels : Nat} :
    x ∈ walk d root exclude (levels + 1) dirs ↔
      x ∈ here d root dirs ∨
        ∃ dirs', Enters d root exclude dirs dirs' ∧ x ∈ walk d root exclude levels dirs' := by
  rw [walk, here]
  cases hlist : d.list (root.descend dirs) with
  | error f => simp [Enters, hlist]
  | ok es =>
    simp only [List.mem_flatMap, List.mem_filterMap, mem_walkEntry]
    constructor
    · rintro ⟨e, he, hx | ⟨henter, hx⟩⟩
      · exact .inl ⟨e, he, hx⟩
      · exact .inr ⟨_, ⟨es, e, hlist, he, henter, rfl⟩, hx⟩
    · rintro (⟨e, he, hx⟩ | ⟨dirs', ⟨es', e, hlist', he, henter, rfl⟩, hx⟩)
      · exact ⟨e, he, .inl hx⟩
      · obtain rfl := Except.ok.inj (hlist.symm.trans hlist')
        exact ⟨e, he, .inr ⟨henter, hx⟩⟩

/-- **A walk that may go deep enough comes across what can be seen in the directories it
reaches.** -/
theorem mem_walk {levels : Nat}
    (hdeep : ∀ ds, Leads d root exclude dirs ds → ds.length < dirs.length + levels) :
    x ∈ walk d root exclude levels dirs ↔
      ∃ ds, Leads d root exclude dirs ds ∧ x ∈ here d root ds := by
  induction levels generalizing dirs with
  | zero => exact absurd (hdeep dirs .refl) (by omega)
  | succ levels ih =>
    -- one directory further in there is one level less, but the names are longer by one
    have hstep {dirs'} (h : Enters d root exclude dirs dirs') :
        x ∈ walk d root exclude levels dirs' ↔
          ∃ ds, Leads d root exclude dirs' ds ∧ x ∈ here d root ds := by
      refine ih fun ds hds => ?_
      have hlt := hdeep ds (.head h hds)
      obtain ⟨_, _, _, _, _, rfl⟩ := h
      simp only [List.length_append, List.length_singleton]
      omega
    rw [mem_walk_succ]
    constructor
    · rintro (hx | ⟨dirs', h, hx⟩)
      · exact ⟨dirs, .refl, hx⟩
      · obtain ⟨ds, hds, hx⟩ := (hstep h).1 hx
        exact ⟨ds, .head h hds, hx⟩
    · rintro ⟨ds, hds, hx⟩
      obtain rfl | ⟨dirs', h, hds⟩ := Relation.ReflTransGen.cases_head hds
      · exact .inl hx
      · exact .inr ⟨dirs', h, (hstep h).2 ⟨ds, hds, hx⟩⟩

theorem prefix_of_mem_here (h : x ∈ here d root dirs) :
    dirs <+: x.names ∧ x ≠ .candidate dirs := by
  unfold here at h
  split at h
  · obtain rfl := List.mem_singleton.1 h
    exact ⟨List.prefix_rfl, by simp⟩
  · obtain ⟨e, -, he⟩ := List.mem_filterMap.1 h
    have hnames := names_of_sightOf? he
    refine ⟨hnames ▸ List.prefix_append _ _, ?_⟩
    rintro rfl
    simp [Sight.names] at hnames

/-- What a walk comes across lies below the directory that it starts from. -/
theorem prefix_of_mem_walk {levels : Nat} (h : x ∈ walk d root exclude levels dirs) :
    dirs <+: x.names ∧ x ≠ .candidate dirs := by
  induction levels generalizing dirs with
  | zero => cases h
  | succ levels ih =>
    obtain h | ⟨dirs', ⟨_, e, _, _, _, rfl⟩, h⟩ := mem_walk_succ.1 h
    · exact prefix_of_mem_here h
    · obtain ⟨hpre, -⟩ := ih h
      refine ⟨(List.prefix_append _ _).trans hpre, ?_⟩
      rintro rfl
      have hlen := hpre.length_le
      simp only [Sight.names, List.length_append, List.length_singleton] at hlen
      omega

theorem prefix_of_mem_walkEntry {levels : Nat}
    (h : x ∈ walkEntry exclude (walk d root exclude levels) dirs e) :
    dirs ++ [e.1] <+: x.names := by
  obtain h | ⟨-, h⟩ := mem_walkEntry.1 h
  · exact names_of_sightOf? h ▸ List.prefix_rfl
  · exact (prefix_of_mem_walk h).1

/-! ### Nothing twice -/

/-- **A walk comes across nothing twice.** -/
theorem nodup_walk (hd : d.Tree) (levels : Nat) (dirs : List Name) :
    (walk d root exclude levels dirs).Nodup := by
  induction levels generalizing dirs with
  | zero => exact List.nodup_nil
  | succ levels ih =>
    rw [walk]
    cases hlist : d.list (root.descend dirs) with
    | error f => exact List.nodup_singleton _
    | ok es =>
      refine List.nodup_flatMap.2 ⟨fun e _ => ?_, ?_⟩
      · exact nodup_walkEntry (fun h => (prefix_of_mem_walk h).2 rfl) (ih _)
      · -- entries have different names, and what is met at an entry begins with its name
        refine (List.pairwise_map.1 (Disk.nodup_list hd hlist)).imp ?_
        intro e e' hne x hx hx'
        have hlen : (dirs ++ [e.1]).length = (dirs ++ [e'.1]).length := by simp
        have heq := List.prefix_of_prefix_length_le (prefix_of_mem_walkEntry hx)
          (prefix_of_mem_walkEntry hx') (Nat.le_of_eq hlen) |>.eq_of_length hlen
        exact hne (by simpa using heq)

end Scan

end FileRoutes
