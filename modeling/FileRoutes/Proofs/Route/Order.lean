import FileRoutes.Route.Order
import Mathlib.Data.List.Perm.Basic

/-!
# Sorted records

Sorting by a total preorder puts records in order and leaves those alone that compare equal
(`Record.StablySorted`, `Record.stablySorted_sortBy`).  It looks at records through the comparator
only (`Record.map_sortBy`).

Both comparators of routes are total preorders in which two records are equal exactly when their
patterns are (`Record.OrdersPatterns`).  So the patterns of sorted records are in one order only,
when each is taken once: `Record.map_pattern_eq_of_sorted`.
-/

namespace FileRoutes

namespace Record

variable {M N : Type}

/-! ### Stable sorting -/

/-- The records are in order, and those that compare equal have not changed places. -/
structure StablySorted (cmp : Record M → Record M → Ordering) (rs sorted : List (Record M)) :
    Prop where
  perm : sorted.Perm rs
  ordered : sorted.Pairwise fun a b => (cmp a b).isLE
  stable : ∀ a b, cmp a b = .eq → [a, b].Sublist rs → [a, b].Sublist sorted

section Sorting

variable {cmp : Record M → Record M → Ordering}

@[simp] theorem mem_sortBy {rs : List (Record M)} {r : Record M} :
    r ∈ sortBy cmp rs ↔ r ∈ rs :=
  List.mem_mergeSort

theorem isLE_total [Std.TransCmp cmp] (a b : Record M) :
    ((cmp a b).isLE || (cmp b a).isLE) = true := by
  cases hab : (cmp a b).isLE with
  | true => rfl
  | false =>
    have hlt : cmp b a = .lt := Std.OrientedCmp.lt_of_gt (Ordering.isLE_eq_false.1 hab)
    simp [hlt]

/-- **Sorting by a total preorder is stable.** -/
theorem stablySorted_sortBy [Std.TransCmp cmp] (rs : List (Record M)) :
    StablySorted cmp rs (sortBy cmp rs) where
  perm := List.mergeSort_perm rs _
  ordered := List.pairwise_mergeSort (fun _ _ _ => Std.TransCmp.isLE_trans) isLE_total rs
  stable := by
    intro a b heq hsub
    refine List.pair_sublist_mergeSort (fun _ _ _ => Std.TransCmp.isLE_trans) isLE_total ?_ hsub
    rw [heq]
    rfl

/-- Records can be changed before they are sorted or after it. -/
theorem map_sortBy (f : Record N → Record M) (rs : List (Record N)) :
    (sortBy (fun a b => cmp (f a) (f b)) rs).map f = sortBy cmp (rs.map f) :=
  List.map_mergeSort fun _ _ _ _ => rfl

end Sorting

/-! ### The orders of routes -/

/-- Comparing records is a total preorder, and those with the same pattern are the equal ones. -/
structure OrdersPatterns (cmp : Record M → Record M → Ordering) : Prop where
  trans : Std.TransCmp cmp
  eq_iff : ∀ {a b}, cmp a b = .eq ↔ a.pattern = b.pattern

theorem ordersPatterns_alphabetical : OrdersPatterns (alphabetical (M := M)) where
  trans := inferInstanceAs (Std.TransCmp (compareOn Record.pattern))
  eq_iff := Std.LawfulEqOrd.compare_eq_iff_eq

theorem specificity_eq : specificity (M := M) =
    compareLex (compareOn isDynamic) (compareLex (fun a b => compareOn depth b a)
      (compareLex (compareOn fun r => r.params.length) alphabetical)) := rfl

theorem ordersPatterns_specificity : OrdersPatterns (specificity (M := M)) where
  trans := by
    -- comparisons one after another are a preorder when each of them is
    have := ordersPatterns_alphabetical (M := M) |>.trans
    have : Std.TransCmp fun a b : Record M => compareOn depth b a := Std.TransCmp.opposite
    rw [specificity_eq]
    infer_instance
  eq_iff {a b} := by
    constructor
    · intro h
      simp only [specificity, Ordering.then_eq_eq] at h
      exact ordersPatterns_alphabetical.eq_iff.1 h.2.2.2
    · -- everything else that is compared is read off the pattern
      intro h
      simp only [specificity, Ordering.then_eq_eq, isDynamic, depth, params, alphabetical, h]
      simp

/-! ### Sorted routes -/

section Sorted

variable {cmp : Record M → Record M → Ordering}

theorem OrdersPatterns.congr (h : OrdersPatterns cmp) {a a' b b' : Record M}
    (ha : a.pattern = a'.pattern) (hb : b.pattern = b'.pattern) : cmp a b = cmp a' b' := by
  have := h.trans
  rw [Std.TransCmp.congr_left (h.eq_iff.2 ha), Std.TransCmp.congr_right (h.eq_iff.2 hb)]

theorem pairwise_sortBy (h : OrdersPatterns cmp) (rs : List (Record M)) :
    (sortBy cmp rs).Pairwise fun a b => (cmp a b).isLE := by
  have := h.trans
  exact (stablySorted_sortBy rs).ordered

/-- **Sorted records with the same patterns, each pattern once, have them in the same order.** -/
theorem map_pattern_eq_of_sorted (h : OrdersPatterns cmp) {rs rs' : List (Record M)}
    (hrs : rs.Pairwise fun a b => (cmp a b).isLE) (hrs' : rs'.Pairwise fun a b => (cmp a b).isLE)
    (hnodup : (rs.map pattern).Nodup) (hnodup' : (rs'.map pattern).Nodup)
    (hmem : ∀ p, p ∈ rs.map pattern ↔ p ∈ rs'.map pattern) :
    rs.map pattern = rs'.map pattern := by
  have := h.trans
  -- records compare as their patterns do, so the order can be told from the patterns alone
  have hsorted {rs : List (Record M)} (hrs : rs.Pairwise fun a b => (cmp a b).isLE) :
      (rs.map pattern).Pairwise fun p q =>
        ∀ a b : Record M, a.pattern = p → b.pattern = q → (cmp a b).isLE := by
    refine List.pairwise_map.2 (hrs.imp fun hab a' b' ha hb => ?_)
    rwa [h.congr ha hb]
  refine List.Perm.eq_of_pairwise ?_ (hsorted hrs) (hsorted hrs')
    ((List.perm_ext_iff_of_nodup hnodup hnodup').2 hmem)
  intro p q hp hq hpq hqp
  obtain ⟨a, -, rfl⟩ := List.mem_map.1 hp
  obtain ⟨b, -, rfl⟩ := List.mem_map.1 hq
  exact h.eq_iff.1 (Std.OrientedCmp.isLE_antisymm (hpq a b rfl rfl) (hqp b a rfl rfl))

end Sorted

end Record

end FileRoutes
