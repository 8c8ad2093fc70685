import FileRoutes.Generator
import FileRoutes.Proofs.Route.Manifest
import FileRoutes.Proofs.Route.Order
import FileRoutes.Proofs.Scan.Relisted

/-!
# The order in which pages are found does not matter

Without payloads, the manifest of sorted records depends on which patterns there are and on nothing
else: neither on the order of the records, nor on how often a pattern occurs, nor on the files it
comes from (`Manifest.ofRecords_apply_eq`).  So with a sort order, artifacts do not depend on the
orders in which directories are listed: `SortOrder.enumeration_irrelevant`.
-/

namespace FileRoutes

namespace Manifest

/-- The manifest of sorted records depends on the set of their patterns only. -/
theorem ofRecords_sortBy_eq {cmp : Record Unit → Record Unit → Ordering}
    (h : Record.OrdersPatterns cmp) {rs rs' : List (Record Unit)}
    (hmem : ∀ p, p ∈ rs.map Record.pattern ↔ p ∈ rs'.map Record.pattern) :
    ofRecords (Record.sortBy cmp rs) = ofRecords (Record.sortBy cmp rs') := by
  have hfirsts (rs : List (Record Unit)) :
      (Record.firsts (Record.sortBy cmp rs)).Pairwise fun a b => (cmp a b).isLE :=
    (Record.pairwise_sortBy h rs).sublist (Record.firsts_sublist _)
  have hpatterns (rs : List (Record Unit)) (p : Text) :
      p ∈ (Record.firsts (Record.sortBy cmp rs)).map Record.pattern ↔
        p ∈ rs.map Record.pattern := by
    rw [Record.mem_map_pattern_firsts]
    simp [List.mem_map]
  rw [ofRecords_eq, ofRecords_eq]
  -- both lists of first records are sorted and have the same patterns, each once
  refine partition_eq_of_patterns (Record.map_pattern_eq_of_sorted h (hfirsts rs) (hfirsts rs')
    (Record.nodup_map_pattern_firsts _) (Record.nodup_map_pattern_firsts _) fun p => ?_)
  rw [hpatterns, hpatterns, hmem]

theorem ofRecords_apply_eq {o : SortOrder} (ho : o = .alphabetical ∨ o = .specificity)
    {rs rs' : List (Record Unit)}
    (hmem : ∀ p, p ∈ rs.map Record.pattern ↔ p ∈ rs'.map Record.pattern) :
    ofRecords (o.apply rs) = ofRecords (o.apply rs') := by
  obtain rfl | rfl := ho
  · exact ofRecords_sortBy_eq Record.ordersPatterns_alphabetical hmem
  · exact ofRecords_sortBy_eq Record.ordersPatterns_specificity hmem

end Manifest

namespace Generator

theorem arrange_eq {M : Type} {g : Generator M} {o : SortOrder} (h : g.order? = o.comparator?)
    (rs : List (Record Unit)) :
    g.arrange rs = o.apply (rs.map fun r => r.withExtra (g.payload r)) := by
  cases hcmp : o.comparator? (M := M) with
  | none => simp [arrange, SortOrder.apply, h, hcmp]
  | some cmp => simp [arrange, SortOrder.apply, h, hcmp]

/-- A generator that sorts renders a relisted tree alike, or fails on it as well. -/
theorem render_relisted {g : Generator Unit} {o : SortOrder}
    (ho : o = .alphabetical ∨ o = .specificity) (hg : g.order? = o.comparator?) {d d' : Disk}
    (h : d.Relisted d') (hd : d.Tree) :
    (∃ e e', g.render d = .error e ∧ g.render d' = .error e') ∨
      ∃ m a, g.render d = .ok (m, a) ∧ g.render d' = .ok (m, a) := by
  obtain ⟨e, e', he, he'⟩ | ⟨rs, rs', hrs, hrs', hmem⟩ := h.scan hd g.root g.exclude
  · exact .inl ⟨e, e', by rw [render, records, he], by rw [render, records, he']⟩
  · have hmanifest : Manifest.ofRecords (g.arrange rs) = Manifest.ofRecords (g.arrange rs') := by
      rw [arrange_eq hg, arrange_eq hg]
      refine Manifest.ofRecords_apply_eq ho fun p => ?_
      simp [List.mem_map, Record.withExtra, hmem]
    refine .inr ⟨Manifest.ofRecords (g.arrange rs'),
      .ofManifest (Manifest.ofRecords (g.arrange rs')), ?_, ?_⟩
    · rw [render, records, hrs]
      simp only [hmanifest]
    · rw [render, records, hrs']

end Generator

/-- **With a sort order, artifacts do not depend on the order in which pages are found.**  Records
with the same patterns give one manifest and the same artifacts, and so do the listings of one
tree. -/
theorem SortOrder.enumeration_irrelevant {o : SortOrder}
    (ho : o = .alphabetical ∨ o = .specificity) :
    (∀ rs rs' : List (Record Unit),
      (∀ p, p ∈ rs.map Record.pattern ↔ p ∈ rs'.map Record.pattern) →
        Manifest.ofRecords (o.apply rs) = Manifest.ofRecords (o.apply rs') ∧
          Artifacts.ofManifest (Manifest.ofRecords (o.apply rs)) =
            Artifacts.ofManifest (Manifest.ofRecords (o.apply rs'))) ∧
    ∀ (g : Generator Unit) (d d' : Disk), g.order? = o.comparator? → d.Tree → d.Relisted d' →
      (∃ e e', g.render d = .error e ∧ g.render d' = .error e') ∨
        ∃ m a, g.render d = .ok (m, a) ∧ g.render d' = .ok (m, a) := by
  refine ⟨fun rs rs' hmem => ?_, fun g d d' hg hd h => Generator.render_relisted ho hg h hd⟩
  have hmanifest := Manifest.ofRecords_apply_eq ho hmem
  exact ⟨hmanifest, congrArg Artifacts.ofManifest hmanifest⟩

/-- A tree with two pages in one directory and one in another. -/
def Disk.threePages : Disk where
  nodes :=
    let place (names : List String) : Place := names.map fun n => Utf8.encode n.toList
    let page : Node := ⟨.file (Utf8.encode "createRoute()".toList), false⟩
    [(place ["[id]"], ⟨.directory, false⟩),
      (place ["[id]", "page.ts"], page),
      (place ["[id]", "page.tsx"], page),
      (place ["a"], ⟨.directory, false⟩),
      (place ["a", "page.js"], page)]
  home := []

/-- Listed backwards, the pages are found in another order and rendered the same. -/
theorem SortOrder.enumeration_irrelevant_threePages :
    let g : Generator Unit :=
      ⟨.ofText "/".toList, .ofText "/gen".toList, fun _ => false, fun _ => (),
        SortOrder.specificity.comparator?⟩
    let a : Record Unit := ⟨.ofText "/a/page.js".toList, "/a".toList, ()⟩
    let b : Record Unit := ⟨.ofText "/[id]/page.ts".toList, "/[id]".toList, ()⟩
    let b' : Record Unit := ⟨.ofText "/[id]/page.tsx".toList, "/[id]".toList, ()⟩
    Manifest.ofRecords (SortOrder.specificity.apply [b, b', a]) =
        Manifest.ofRecords (SortOrder.specificity.apply [a, b']) ∧
      ∃ m t, g.render Disk.threePages = .ok (m, t) ∧
        g.render { Disk.threePages with nodes := Disk.threePages.nodes.reverse } = .ok (m, t) := by
  intro g a b b'
  have h : SortOrder.specificity = .alphabetical ∨ SortOrder.specificity = .specificity := .inr rfl
  refine ⟨((enumeration_irrelevant h).1 _ _ fun p => by simpa [a, b, b', or_comm] using .inr).1, ?_⟩
  refine ((enumeration_irrelevant h).2 g Disk.threePages
    { Disk.threePages with nodes := Disk.threePages.nodes.reverse } rfl (by decide)
    ⟨(List.reverse_perm _).symm, rfl⟩).resolve_left ?_
  rintro ⟨e, -, he, -⟩
  have hscan : (Disk.threePages.scan g.root g.exclude).toOption.isSome = true := by decide +kernel
  cases hs : Disk.threePages.scan g.root g.exclude with
  | error e => simp [hs, Except.toOption] at hscan
  | ok rs => simp [Generator.render, Generator.records, hs] at he

end FileRoutes
