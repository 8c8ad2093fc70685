import FileRoutes.Disk.Resolve
import Mathlib.Data.List.Induction
import Mathlib.Data.List.Nodup
import Mathlib.Tactic.SplitIfs

/-!
# Trees

In a tree the list of nodes and the view `Disk.node?` say the same (`Disk.node?_eq_some`), so a
directory is listed with exactly the nodes that stand one name below it (`Disk.mem_inside`), each
once (`Disk.nodup_inside`).  What contains a node is a directory (`Disk.directoryAt_of_append`),
and no node stands deeper than `Disk.height`.
-/

namespace FileRoutes

namespace Node

theorem isDirectory_iff {n : Node} : n.isDirectory = true ↔ n.entry = .directory := by
  simp [isDirectory]

end Node

namespace Disk

variable {d : Disk}

theorem directoryAt_iff {p : Place} :
    d.directoryAt p = true ↔ ∃ n, d.node? p = some n ∧ n.isDirectory = true := by
  rw [directoryAt, Option.any_eq_true]

@[simp] theorem node?_nil : d.node? [] = some ⟨.directory, false⟩ := rfl

theorem node?_eq_some (hnodup : (d.nodes.map Prod.fst).Nodup) {p : Place} {n : Node} (hp : p ≠ []) :
    d.node? p = some n ↔ (p, n) ∈ d.nodes := by
  rw [node?, if_neg hp, Option.map_eq_some_iff]
  constructor
  · rintro ⟨e, he, rfl⟩
    have hep : e.1 = p := by simpa using List.find?_some he
    exact hep ▸ List.mem_of_find?_eq_some he
  · intro h
    obtain ⟨e, he⟩ := Option.isSome_iff_exists.1
      (List.find?_isSome.2 ⟨(p, n), h, by simp⟩ : (d.nodes.find? fun e => e.1 = p).isSome)
    have hep : e.1 = p := by simpa using List.find?_some he
    -- the place occurs once, so this is the node that was asked for
    have heq : e = (p, n) :=
      List.inj_on_of_nodup_map hnodup (List.mem_of_find?_eq_some he) h hep
    exact ⟨e, he, by rw [heq]⟩

/-- A node is listed in the directory it lies in, by its last name. -/
theorem entry_eq_some {p : Place} {e : Place × Node} {f : Name × Node} :
    (if e.1.dropLast = p then e.1.getLast?.map (·, e.2) else none) = some f ↔
      e.1 = p ++ [f.1] ∧ e.2 = f.2 := by
  constructor
  · intro h
    split at h
    · rename_i hp
      obtain ⟨x, hx, rfl⟩ := Option.map_eq_some_iff.1 h
      obtain ⟨q, hq⟩ := List.getLast?_eq_some_iff.1 hx
      rw [hq, List.dropLast_concat] at hp
      exact ⟨hp ▸ hq, rfl⟩
    · cases h
  · rintro ⟨h₁, h₂⟩
    simp [h₁, h₂]

theorem mem_inside (hd : d.Tree) {p : Place} {name : Name} {n : Node} :
    (name, n) ∈ d.inside p ↔ d.node? (p ++ [name]) = some n := by
  rw [node?_eq_some hd.nodup (by simp), inside, List.mem_filterMap]
  simp only [entry_eq_some]
  constructor
  · rintro ⟨e, hmem, h₁, h₂⟩
    rwa [← h₁, ← h₂]
  · intro h
    exact ⟨_, h, rfl, rfl⟩

theorem nodup_inside (hd : d.Tree) (p : Place) : ((d.inside p).map Prod.fst).Nodup := by
  have hsub : ((d.inside p).map fun f => p ++ [f.1]).Sublist (d.nodes.map Prod.fst) := by
    unfold inside
    induction d.nodes with
    | nil => simp
    | cons e es ih =>
      rw [List.filterMap_cons]
      split
      · exact ih.cons _
      · rename_i f hf
        rw [List.map_cons, List.map_cons, (entry_eq_some.1 hf).1]
        exact ih.cons_cons _
  have h := hd.nodup.sublist hsub
  rw [show (fun f : Name × Node => p ++ [f.1]) = (p ++ [·]) ∘ Prod.fst from rfl,
    ← List.map_map] at h
  exact h.of_map

theorem nodup_list (hd : d.Tree) {path : Path} {es : List (Name × Node)}
    (h : d.list path = .ok es) : (es.map Prod.fst).Nodup := by
  unfold list at h
  split at h
  · cases h
  · rename_i q _ _
    split_ifs at h
    obtain rfl := Except.ok.inj h
    exact nodup_inside hd q

theorem length_le_height {p : Place} {n : Node} (h : d.node? p = some n) :
    p.length ≤ d.height := by
  have hle {e : Place × Node} (he : e ∈ d.nodes) : e.1.length ≤ d.height := by
    unfold height
    generalize d.nodes = es at he
    induction es with
    | nil => cases he
    | cons e' es ih =>
      rw [List.foldr_cons]
      obtain rfl | he := List.mem_cons.1 he
      · exact Nat.le_max_left _ _
      · exact Nat.le_trans (ih he) (Nat.le_max_right _ _)
  by_cases hp : p = []
  · simp [hp]
  · rw [node?, if_neg hp] at h
    obtain ⟨e, he, -⟩ := Option.map_eq_some_iff.1 h
    have hep : e.1 = p := by simpa using List.find?_some he
    exact hep ▸ hle (List.mem_of_find?_eq_some he)

/-- What a node lies in is a directory. -/
theorem directoryAt_of_append (hd : d.Tree) {p q : Place} {n : Node} (hq : q ≠ [])
    (h : d.node? (p ++ q) = some n) : d.directoryAt p = true := by
  induction q using List.reverseRecOn generalizing n with
  | nil => exact absurd rfl hq
  | append_singleton q x ih =>
    rw [← List.append_assoc] at h
    have hin := hd.inside _ ((node?_eq_some hd.nodup (by simp)).1 h)
    rw [List.dropLast_concat] at hin
    by_cases hq' : q = []
    · rwa [hq', List.append_nil] at hin
    · obtain ⟨m, hm, -⟩ := directoryAt_iff.1 hin
      exact ih hq' hm

theorem proper_of_node? (hd : d.Tree) {p : Place} {n : Node} (h : d.node? p = some n) :
    ∀ x ∈ p, x.Proper := by
  by_cases hp : p = []
  · simp [hp]
  · exact hd.proper _ ((node?_eq_some hd.nodup hp).1 h)

end Disk

end FileRoutes
