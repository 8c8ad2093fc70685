import FileRoutes.Proofs.Disk.View
import FileRoutes.Proofs.Scan.Collect
import FileRoutes.Proofs.Scan.Walk

/-!
# Scans of relisted trees

When directories are listed in other orders, a walk comes across the same things
(`Scan.mem_walk_relisted`) and each of them adds the same record.  So a scan fails or finds the
same records: `Disk.Relisted.scan`.
-/

namespace FileRoutes

variable {d d' : Disk} {root : Path} {exclude : Path → Bool}

namespace Scan

section Relisted

variable (h : d.Relisted d') (hd : d.Tree)

include h hd

theorem recognize_relisted (x : Sight) : recognize d root x = recognize d' root x := by
  cases x with
  | candidate dirs => rfl
  | closed dirs f => rfl
  | file names => rw [recognize, recognize, (h.sameView hd).read]

theorem mem_here_relisted {dirs : List Name} {x : Sight} :
    x ∈ here d root dirs ↔ x ∈ here d' root dirs := by
  obtain ⟨f, hf, hf'⟩ | ⟨es, es', hes, hes', hmem⟩ := h.list hd (root.descend dirs)
  · rw [here, here, hf, hf']
  · rw [here, here, hes, hes']
    simp only [List.mem_filterMap, hmem]

theorem enters_relisted {dirs ds : List Name} :
    Enters d root exclude dirs ds ↔ Enters d' root exclude dirs ds := by
  obtain ⟨f, hf, hf'⟩ | ⟨es, es', hes, hes', hmem⟩ := h.list hd (root.descend dirs)
  · simp [Enters, hf, hf']
  · simp only [Enters, hes, hes', Except.ok.injEq, exists_and_left, exists_eq_left', hmem]

/-- A walk comes across the same things, whatever the orders of the directories. -/
theorem mem_walk_relisted {levels : Nat} {dirs : List Name} {x : Sight} :
    x ∈ walk d root exclude levels dirs ↔ x ∈ walk d' root exclude levels dirs := by
  induction levels generalizing dirs with
  | zero => rfl
  | succ levels ih =>
    simp only [mem_walk_succ, mem_here_relisted h hd, enters_relisted h hd, ih]

end Relisted

end Scan

namespace Disk

theorem Relisted.mem_sights (h : d.Relisted d') (hd : d.Tree) {x : Scan.Sight} :
    x ∈ d.sights root exclude ↔ x ∈ d'.sights root exclude := by
  rw [sights, sights, scanStart?, scanStart?, (h.sameView hd).look, h.height]
  split
  · rfl
  · exact Scan.mem_walk_relisted h hd

/-- **A scan of a relisted tree fails as well, or finds the same records.** -/
theorem Relisted.scan (h : d.Relisted d') (hd : d.Tree) (root : Path) (exclude : Path → Bool) :
    (∃ e e', d.scan root exclude = .error e ∧ d'.scan root exclude = .error e') ∨
      ∃ rs rs', d.scan root exclude = .ok rs ∧ d'.scan root exclude = .ok rs' ∧
        ∀ r, r ∈ rs ↔ r ∈ rs' := by
  have herr : (∃ e, d.scan root exclude = .error e) ↔ ∃ e, d'.scan root exclude = .error e := by
    rw [Disk.scan, Disk.scan, Scan.exists_collect_eq_error, Scan.exists_collect_eq_error]
    simp only [h.mem_sights hd, Scan.recognize_relisted h hd]
  cases hs : d.scan root exclude with
  | error e =>
    obtain ⟨e', he'⟩ := herr.1 ⟨e, hs⟩
    exact .inl ⟨e, e', rfl, he'⟩
  | ok rs =>
    cases hs' : d'.scan root exclude with
    | error e' =>
      obtain ⟨e, he⟩ := herr.2 ⟨e', hs'⟩
      cases hs.symm.trans he
    | ok rs' =>
      refine .inr ⟨rs, rs', rfl, rfl, fun r => ?_⟩
      rw [Scan.mem_collect hs, Scan.mem_collect hs']
      simp only [h.mem_sights hd, Scan.recognize_relisted h hd]

end Disk

end FileRoutes
