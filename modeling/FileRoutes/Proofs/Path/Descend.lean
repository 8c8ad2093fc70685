import FileRoutes.Disk.Resolve
import Mathlib.Data.List.Basic
import Mathlib.Data.List.Induction

/-!
# Going down a path

Going down from a path through file names adds them to its steps and changes nothing else that a
walk along the path looks at: whether it is absolute, and whether there is a NUL in it
(`Path.extends_descend`).  A path that was gone down from does not end in a slash
(`Path.endsInSlash_descend`).
-/

namespace FileRoutes

namespace Path

/-- `q` goes on from `p` through the names `ns`. -/
structure Extends (p : Path) (ns : List Name) (q : Path) : Prop where
  raw_ne_nil : q.raw ≠ []
  isAbsolute : q.isAbsolute = p.isAbsolute
  nul : 0 ∈ q.raw ↔ 0 ∈ p.raw
  length : p.raw.length ≤ q.raw.length
  steps : q.steps = p.steps ++ ns

theorem Extends.refl {p : Path} (hp : p.raw ≠ []) : Extends p [] p :=
  ⟨hp, rfl, Iff.rfl, Nat.le_refl _, by simp⟩

theorem Extends.trans {p q r : Path} {ns ms : List Name} (h₁ : Extends p ns q)
    (h₂ : Extends q ms r) : Extends p (ns ++ ms) r :=
  ⟨h₂.raw_ne_nil, h₂.isAbsolute.trans h₁.isAbsolute, h₂.nul.trans h₁.nul,
    Nat.le_trans h₁.length h₂.length, by rw [h₂.steps, h₁.steps, List.append_assoc]⟩

variable {p : Path} {n : Name} {ns : List Name}

/-! ### One name -/

theorem isAbsolute_name (hn : n.Proper) : Path.isAbsolute ⟨n⟩ = false := by
  rw [isAbsolute, decide_eq_false_iff_not]
  exact fun h => hn.no_slash (List.mem_of_mem_head? h)

/-- A path that ends in a slash takes a name as it is, any other path behind a slash. -/
theorem join_name (hp : p.raw ≠ []) (hn : n.Proper) :
    (∃ l, p.raw = l ++ [slash] ∧ (p.join ⟨n⟩).raw = l ++ slash :: n) ∨
      (p.join ⟨n⟩).raw = p.raw ++ slash :: n := by
  have habs := isAbsolute_name hn
  by_cases h : p.raw.getLast? = some slash
  · obtain ⟨l, hl⟩ := List.getLast?_eq_some_iff.1 h
    exact .inl ⟨l, hl, by simp [join, habs, hl]⟩
  · exact .inr (by simp [join, habs, h, hp])

theorem steps_append_name (l : Bytes) (hn : n.Proper) :
    Path.steps ⟨l ++ slash :: n⟩ = Path.steps ⟨l⟩ ++ [n] := by
  simp [steps, pieces, splitOn_append_sep, splitOn_of_notMem hn.no_slash, hn.ne_nil]

theorem steps_append_slash (l : Bytes) : Path.steps ⟨l ++ [slash]⟩ = Path.steps ⟨l⟩ := by
  simp [steps, pieces, splitOn_append_sep, splitOn]

theorem extends_join (hp : p.raw ≠ []) (hn : n.Proper) : Extends p [n] (p.join ⟨n⟩) := by
  have hslash : (0 : UInt8) ≠ slash := by decide
  obtain ⟨x, l, hx⟩ := List.exists_cons_of_ne_nil hp
  obtain ⟨l', hl, h⟩ | h := join_name hp hn
  · have hstart : (p.join ⟨n⟩).raw = p.raw ++ n := by simp [h, hl]
    refine ⟨by simp [h], by simp [isAbsolute, hstart, hx], by simp [hstart, hn.no_nul],
      by simp [hstart], ?_⟩
    rw [steps, pieces, h, ← pieces, ← steps, steps_append_name l' hn, ← steps_append_slash l', ← hl]
  · refine ⟨by simp [h], by simp [isAbsolute, h, hx], by simp [h, hn.no_nul, hslash],
      by simp [h], ?_⟩
    rw [steps, pieces, h, ← pieces, ← steps, steps_append_name p.raw hn]

theorem endsInSlash_join (hp : p.raw ≠ []) (hn : n.Proper) :
    (p.join ⟨n⟩).endsInSlash = false := by
  have hlast (l : Bytes) : (l ++ slash :: n).getLast? = n.getLast? := by
    obtain ⟨m, x, hx⟩ := List.eq_nil_or_concat' n |>.resolve_left hn.ne_nil
    simp [hx, List.getLast?_append, List.getLast?_cons]
  rw [endsInSlash, decide_eq_false_iff_not]
  intro h'
  refine hn.no_slash (List.mem_of_getLast? (a := slash) ?_)
  obtain ⟨l, -, h⟩ | h := join_name hp hn
  · rwa [h, hlast] at h'
  · rwa [h, hlast] at h'

/-! ### Several names -/

@[simp] theorem descend_nil (p : Path) : p.descend [] = p := rfl

theorem descend_concat (p : Path) (ns : List Name) (n : Name) :
    p.descend (ns ++ [n]) = (p.descend ns).join ⟨n⟩ := by
  simp [descend]

/-- **Going down through file names adds them to the steps of a path.** -/
theorem extends_descend (hp : p.raw ≠ []) (hns : ∀ n ∈ ns, n.Proper) :
    Extends p ns (p.descend ns) := by
  induction ns using List.reverseRecOn with
  | nil => exact .refl hp
  | append_singleton ns n ih =>
    have ih := ih fun m hm => hns m (List.mem_append_left _ hm)
    rw [descend_concat]
    exact ih.trans (extends_join ih.raw_ne_nil (hns n (by simp)))

theorem endsInSlash_descend (hp : p.raw ≠ []) (hns : ∀ n ∈ ns, n.Proper) (hne : ns ≠ []) :
    (p.descend ns).endsInSlash = false := by
  obtain ⟨ms, n, rfl⟩ := (List.eq_nil_or_concat' ns).resolve_left hne
  rw [descend_concat]
  have hext : Extends p ms (p.descend ms) := extends_descend hp fun m hm => hns m (by simp [hm])
  exact endsInSlash_join hext.raw_ne_nil (hns n (by simp))

end Path

end FileRoutes
