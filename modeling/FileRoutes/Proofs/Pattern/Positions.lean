import FileRoutes.Proofs.Pattern.Matching

/-!
# Placeholders and the segments opposite them

A pattern and a path are laid side by side, segment by segment.

* `Pattern.Opposite ss path i name x` : at position `i` the placeholder `name` stands opposite the
  path segment `x`.
* `Pattern.bindings ss path` : the names of the placeholders, left to right, each with the segment
  opposite it.  This is what matching reads (`Pattern.zip_captured`).

The list and the positions say the same (`Pattern.mem_bindings`), in the same order
(`Pattern.exists_opposite_of_split`).
-/

namespace FileRoutes

/-! ### The first exception -/

/-- A test holds of all elements of a list, or there is a first one of which it does not. -/
theorem all_or_first {α : Type} (test : α → Bool) (l : List α) :
    (∀ a ∈ l, test a = true) ∨ ∃ before a after, l = before ++ a :: after ∧
      (∀ b ∈ before, test b = true) ∧ test a = false := by
  cases hfind : l.find? fun a => !test a with
  | none => exact .inl fun a ha => by simpa using List.find?_eq_none.1 hfind a ha
  | some a =>
    obtain ⟨ha, before, after, rfl, hbefore⟩ := List.find?_eq_some_iff_append.1 hfind
    exact .inr ⟨before, a, after, rfl, fun b hb => by simpa using hbefore b hb, by simpa using ha⟩

namespace Pattern

variable {ss : List Segment} {path : List Text} {i : Nat} {name x : Text}

/-- At position `i` the placeholder `name` stands opposite the path segment `x`. -/
def Opposite (ss : List Segment) (path : List Text) (i : Nat) (name x : Text) : Prop :=
  ss[i]? = some (.placeholder name) ∧ path[i]? = some x

/-- The name of a placeholder with the path segment opposite it. -/
def binding? (e : Segment × Text) : Option (Text × Text) := e.1.name?.map (·, e.2)

/-- The names of the placeholders, each with the path segment opposite it. -/
def bindings (ss : List Segment) (path : List Text) : List (Text × Text) :=
  (ss.zip path).filterMap binding?

theorem binding?_eq_some {e : Segment × Text} :
    binding? e = some (name, x) ↔ e = (.placeholder name, x) := by
  obtain ⟨g, y⟩ := e
  cases g <;> simp [binding?, Segment.name?]

theorem getElem?_zip_eq_some :
    (ss.zip path)[i]? = some (.placeholder name, x) ↔ Opposite ss path i name x :=
  List.getElem?_zip_eq_some

theorem mem_bindings : (name, x) ∈ bindings ss path ↔ ∃ i, Opposite ss path i name x := by
  rw [bindings, List.mem_filterMap]
  simp only [binding?_eq_some, exists_eq_right, List.mem_iff_getElem?, getElem?_zip_eq_some]

/-- Where the list is cut at a placeholder, the pattern and the path are cut at its position: what
stands further left is in the first part, and what stands further right is in the second. -/
theorem exists_opposite_of_split {before after : List (Text × Text)}
    (h : bindings ss path = before ++ (name, x) :: after) :
    ∃ i, Opposite ss path i name x ∧
      (∀ j < i, ∀ n y, Opposite ss path j n y → (n, y) ∈ before) ∧
      ∀ j > i, ∀ n y, Opposite ss path j n y → (n, y) ∈ after := by
  obtain ⟨l₀, l, hcut, rfl, hl⟩ := List.filterMap_eq_append_iff.1 h
  obtain ⟨l₁, e, l₂, rfl, hskip, he, rfl⟩ := List.filterMap_eq_cons_iff.1 hl
  rw [binding?_eq_some] at he
  rw [← List.append_assoc] at hcut
  refine ⟨(l₀ ++ l₁).length, ?_, fun j hj n y hy => ?_, fun j hj n y hy => ?_⟩
  · rw [← getElem?_zip_eq_some, hcut, List.getElem?_append_right (Nat.le_refl _), Nat.sub_self,
      List.getElem?_cons_zero, he]
  · rw [← getElem?_zip_eq_some, hcut, List.getElem?_append_left hj] at hy
    have hmem := List.mem_filterMap.2 ⟨_, List.mem_of_getElem? hy, binding?_eq_some.2 rfl⟩
    rwa [List.filterMap_append, List.filterMap_eq_nil_iff.2 hskip, List.append_nil] at hmem
  · rw [← getElem?_zip_eq_some, hcut, List.getElem?_append_right (Nat.le_of_lt hj)] at hy
    obtain ⟨k, hk⟩ : ∃ k, j - (l₀ ++ l₁).length = k + 1 := ⟨_, (Nat.succ_pred (by omega)).symm⟩
    rw [hk, List.getElem?_cons_succ] at hy
    exact List.mem_filterMap.2 ⟨_, List.mem_of_getElem? hy, binding?_eq_some.2 rfl⟩

/-! ### What matching reads -/

/-- The names, paired one by one with what was captured. -/
theorem zip_captured (ss : List Segment) (path : List Text) :
    (ss.filterMap Segment.name?).zip (captured ss path) = bindings ss path := by
  induction ss generalizing path with
  | nil => simp [bindings]
  | cons g ss ih =>
    cases path with
    | nil => simp [bindings, captured]
    | cons x path =>
      cases g <;> simpa [bindings, binding?, Segment.name?, List.filterMap_cons] using ih path

/-- Every placeholder captures one segment. -/
theorem length_captured (h : Fits ss path) :
    (captured ss path).length = (ss.filterMap Segment.name?).length := by
  rw [fits_iff] at h
  induction h with
  | nil => rfl
  | @cons g x ss path _ _ ih =>
    cases g <;> simp [Segment.name?, List.filterMap_cons, ih]

theorem map_fst_bindings (h : Fits ss path) :
    (bindings ss path).map Prod.fst = ss.filterMap Segment.name? := by
  rw [← zip_captured, List.map_fst_zip (Nat.le_of_eq (length_captured h).symm)]

theorem map_snd_bindings (h : Fits ss path) :
    (bindings ss path).map Prod.snd = captured ss path := by
  rw [← zip_captured, List.map_snd_zip (Nat.le_of_eq (length_captured h))]

/-- Nothing empty stands opposite a placeholder. -/
theorem Opposite.ne_nil (h : Opposite ss path i name x) (hfits : Fits ss path) : x ≠ [] := by
  obtain ⟨hi, hg⟩ := List.getElem?_eq_some_iff.1 h.1
  obtain ⟨hi', hx⟩ := List.getElem?_eq_some_iff.1 h.2
  have := hfits.2 i hi hi'
  rwa [hg, hx] at this

/-- A name that occurs once stands at one position only. -/
theorem Opposite.position_unique {j : Nat} {y : Text} (h : Opposite ss path i name x)
    (h' : Opposite ss path j name y) (hnodup : (ss.filterMap Segment.name?).Nodup) : i = j := by
  obtain ⟨hi, hg⟩ := List.getElem?_eq_some_iff.1 h.1
  obtain ⟨hj, hg'⟩ := List.getElem?_eq_some_iff.1 h'.1
  rw [List.Nodup, List.pairwise_filterMap, List.pairwise_iff_getElem] at hnodup
  by_contra hne
  obtain hlt | hlt := Nat.lt_or_gt_of_ne hne
  · exact hnodup i j hi hj hlt name (by rw [hg]; rfl) name (by rw [hg']; rfl) rfl
  · exact hnodup j i hj hi hlt name (by rw [hg']; rfl) name (by rw [hg]; rfl) rfl

end Pattern

end FileRoutes
