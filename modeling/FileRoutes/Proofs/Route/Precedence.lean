import FileRoutes.Proofs.Pattern.Overlap
import FileRoutes.Proofs.Route.Manifest
import FileRoutes.Proofs.Route.Order
import FileRoutes.Proofs.Text.Order
import FileRoutes.Route.Table

/-!
# The first match is the best match

In a table of routes sorted by specificity, the first dynamic route that matches a path is the best
one (`Pattern.BestMatch`): of all that match, it has the fewest placeholders, and of those it comes
first byte by byte.  The order compares depths before placeholders, but patterns that match the same
path have the same depth, so depth never decides between them
(`Record.ranksBefore_of_specificity`).

A best match is never broader than another match (`Pattern.BestMatch.not_broader`), so no dynamic
route is shadowed by a broader one: `RouteTable.match?_sortBy_specificity`.
-/

namespace FileRoutes

variable {M : Type}

namespace Pattern

/-- `p` has fewer placeholders than `q`, or as many and comes first byte by byte. -/
def RanksBefore (p q : Text) : Prop :=
  (names p).length < (names q).length ∨
    (names p).length = (names q).length ∧ compare (Utf8.encode p) (Utf8.encode q) = .lt

instance (p q : Text) : Decidable (RanksBefore p q) :=
  inferInstanceAs (Decidable (_ ∨ _ ∧ _))

/-- `p` ranks before all other dynamic patterns of a list that match the path. -/
structure BestMatch (ps : List Text) (path p : Text) : Prop where
  mem : p ∈ ps
  dynamic : isDynamic p = true
  fits : isMatch p path = true
  least : ∀ q ∈ ps, isDynamic q = true → isMatch q path = true → q ≠ p → RanksBefore p q

variable {ps : List Text} {path p q : Text}

theorem RanksBefore.asymm (h : RanksBefore p q) : ¬RanksBefore q p := by
  intro h'
  obtain hlt | ⟨heq, hlt⟩ := h
  · obtain hlt' | ⟨heq', -⟩ := h' <;> omega
  · obtain hlt' | ⟨-, hlt'⟩ := h'
    · omega
    · rw [Std.OrientedCmp.gt_of_lt hlt] at hlt'
      cases hlt'

theorem BestMatch.unique (h : BestMatch ps path p) (h' : BestMatch ps path q) : p = q := by
  by_contra hne
  have hpq := h.least q h'.mem h'.dynamic h'.fits (Ne.symm hne)
  exact hpq.asymm (h'.least p h.mem h.dynamic h.fits hne)

/-- A best match is not broader than another match. -/
theorem BestMatch.not_broader (h : BestMatch ps path q) (hp : p ∈ ps) (hdyn : isDynamic p = true)
    (hmatch : isMatch p path = true) : ¬Broader q p := by
  intro hbroad
  have hlt := hbroad.length_names_lt
  have hne : p ≠ q := by
    rintro rfl
    exact Nat.lt_irrefl _ hlt
  obtain hlt' | ⟨heq, -⟩ := h.least p hp hdyn hmatch hne <;> omega

end Pattern

open Pattern (RanksBefore BestMatch Broader)

theorem Record.mem_map_pattern_sortBy {cmp : Record M → Record M → Ordering}
    {rs : List (Record M)} {p : Text} :
    p ∈ (sortBy cmp rs).map pattern ↔ p ∈ rs.map pattern := by
  simp only [List.mem_map, mem_sortBy]

/-- Between dynamic routes of one depth, specificity is the order of ranks. -/
theorem Record.ranksBefore_of_specificity {a b : Record M} (ha : a.isDynamic = true)
    (hb : b.isDynamic = true) (hdepth : a.depth = b.depth) (hne : a.pattern ≠ b.pattern)
    (h : (specificity a b).isLE) : RanksBefore a.pattern b.pattern := by
  rw [specificity, ha, hb, hdepth, Std.compare_self, Std.compare_self] at h
  cases hparams : compare a.params.length b.params.length with
  | lt => exact .inl (Nat.compare_eq_lt.1 hparams)
  | gt =>
    rw [hparams] at h
    cases h
  | eq =>
    rw [hparams] at h
    refine .inr ⟨Nat.compare_eq_eq.1 hparams, ?_⟩
    rw [Utf8.compare_encode]
    cases hpattern : compare a.pattern b.pattern with
    | lt => rfl
    | eq => exact absurd (Std.compare_eq_iff_eq.1 hpattern) hne
    | gt =>
      rw [show alphabetical a b = .gt from hpattern] at h
      cases h

namespace Manifest

theorem dynamicPatterns_ofRecords (rs : List (Record M)) :
    (ofRecords rs).dynamicPatterns =
      ((Record.firsts rs).filter fun r => r.isDynamic).map Record.pattern := by
  rw [ofRecords_eq, partition, dynamicPatterns, List.map_map]
  rfl

theorem mem_dynamicPatterns_ofRecords {rs : List (Record M)} {p : Text} :
    p ∈ (ofRecords rs).dynamicPatterns ↔
      p ∈ rs.map Record.pattern ∧ Pattern.isDynamic p = true := by
  have hfirsts : p ∈ (Record.firsts rs).map Record.pattern ↔ p ∈ rs.map Record.pattern :=
    Record.mem_map_pattern_firsts
  rw [dynamicPatterns_ofRecords, ← hfirsts, List.mem_map, List.mem_map]
  constructor
  · rintro ⟨r, hr, rfl⟩
    obtain ⟨hr, hdyn⟩ := List.mem_filter.1 hr
    exact ⟨⟨r, hr, rfl⟩, hdyn⟩
  · rintro ⟨⟨r, hr, rfl⟩, hdyn⟩
    exact ⟨r, List.mem_filter.2 ⟨hr, hdyn⟩, rfl⟩

/-- The dynamic routes of sorted records: one that comes later and has the depth of an earlier one
ranks behind it. -/
theorem pairwise_dynamicPatterns (rs : List (Record M)) :
    (ofRecords (Record.sortBy Record.specificity rs)).dynamicPatterns.Pairwise fun p q =>
      Pattern.depth p = Pattern.depth q → RanksBefore p q := by
  rw [dynamicPatterns_ofRecords, List.pairwise_map]
  have hsorted := (Record.pairwise_sortBy Record.ordersPatterns_specificity rs).sublist
    (Record.firsts_sublist _)
  have hnodup := List.pairwise_map.1
    (Record.nodup_map_pattern_firsts (Record.sortBy Record.specificity rs))
  refine ((hsorted.and hnodup).filter _).imp_of_mem fun ha hb h hdepth => ?_
  exact Record.ranksBefore_of_specificity (List.mem_filter.1 ha).2 (List.mem_filter.1 hb).2
    hdepth h.2 h.1

end Manifest

namespace RouteTable

variable {rs : List (Record M)} {path p : Text}

theorem match?_ofManifest (m : Manifest M) (path : Text) :
    (ofManifest m).match? path = m.dynamicPatterns.find? fun p => Pattern.isMatch p path := rfl

theorem match?_eq_none :
    (ofManifest (Manifest.ofRecords rs)).match? path = none ↔
      ∀ p ∈ rs.map Record.pattern, Pattern.isDynamic p = true →
        Pattern.isMatch p path = false := by
  rw [match?_ofManifest, List.find?_eq_none]
  simp only [Manifest.mem_dynamicPatterns_ofRecords, and_imp, Bool.not_eq_true]

/-- The first match ranks before all matches behind it. -/
theorem bestMatch_of_match?
    (h : (ofManifest (Manifest.ofRecords (Record.sortBy Record.specificity rs))).match? path =
      some p) : BestMatch (rs.map Record.pattern) path p := by
  have hmem {q : Text} :
      q ∈ (Manifest.ofRecords (Record.sortBy Record.specificity rs)).dynamicPatterns ↔
        q ∈ rs.map Record.pattern ∧ Pattern.isDynamic q = true := by
    rw [Manifest.mem_dynamicPatterns_ofRecords, Record.mem_map_pattern_sortBy]
  have hsorted := Manifest.pairwise_dynamicPatterns rs
  rw [match?_ofManifest, List.find?_eq_some_iff_append] at h
  obtain ⟨hfits, before, behind, hsplit, hbefore⟩ := h
  simp only [hsplit, List.mem_append, List.mem_cons] at hmem
  rw [hsplit, List.pairwise_append, List.pairwise_cons] at hsorted
  have hp := hmem.1 (.inr (.inl rfl))
  refine ⟨hp.1, hp.2, hfits, fun q hq hdyn hqfits hne => ?_⟩
  -- another match cannot stand in front of the first one
  have hnot : q ∉ before := fun hq => by simpa [hqfits] using hbefore q hq
  have hbehind : q ∈ behind := ((hmem.2 ⟨hq, hdyn⟩).resolve_left hnot).resolve_left hne
  exact hsorted.2.1.1 q hbehind
    ((Pattern.depth_eq_of_isMatch hfits).trans (Pattern.depth_eq_of_isMatch hqfits).symm)

theorem match?_eq_some :
    (ofManifest (Manifest.ofRecords (Record.sortBy Record.specificity rs))).match? path = some p ↔
      BestMatch (rs.map Record.pattern) path p := by
  refine ⟨bestMatch_of_match?, fun h => ?_⟩
  cases hmatch :
      (ofManifest (Manifest.ofRecords (Record.sortBy Record.specificity rs))).match? path with
  | none =>
    have hno := match?_eq_none.1 hmatch p (Record.mem_map_pattern_sortBy.2 h.mem) h.dynamic
    cases hno.symm.trans h.fits
  | some q => rw [(bestMatch_of_match? hmatch).unique h]

/-- **Sorted by specificity, the first match is the best match.**  A path belongs to no dynamic
route exactly when none matches it, and otherwise to the one that ranks before all others that
match.  So a dynamic route that matches is never shadowed by a broader one. -/
theorem match?_sortBy_specificity (rs : List (Record M)) (path : Text) :
    let t := ofManifest (Manifest.ofRecords (Record.sortBy Record.specificity rs))
    let ps := rs.map Record.pattern
    (t.match? path = none ↔
      ∀ p ∈ ps, Pattern.isDynamic p = true → Pattern.isMatch p path = false) ∧
    (∀ p, t.match? path = some p ↔ BestMatch ps path p) ∧
    ∀ p ∈ ps, Pattern.isDynamic p = true → Pattern.isMatch p path = true →
      ∀ q, Broader q p → t.match? path ≠ some q := by
  refine ⟨?_, fun p => match?_eq_some, fun p hp hdyn hfits q hbroad hq => ?_⟩
  · rw [match?_eq_none]
    simp only [Record.mem_map_pattern_sortBy]
  · exact (match?_eq_some.1 hq).not_broader hp hdyn hfits hbroad

/-- `/user/[id]` comes before `/user/[name]` and is not shadowed by `/[section]/[id]`. -/
theorem match?_sortBy_specificity_user :
    let record (p : String) : Record Unit := ⟨.ofText "page.ts".toList, p.toList, ()⟩
    let t := ofManifest (Manifest.ofRecords (Record.sortBy Record.specificity
      [record "/[section]/[id]", record "/user/[name]", record "/user/me", record "/user/[id]"]))
    t.match? "/user/1".toList = some "/user/[id]".toList ∧
      Broader "/[section]/[id]".toList "/user/[id]".toList ∧
        t.match? "/user/1".toList ≠ some "/[section]/[id]".toList := by
  intro record t
  obtain ⟨-, hbest, hshadow⟩ := match?_sortBy_specificity
    [record "/[section]/[id]", record "/user/[name]", record "/user/me", record "/user/[id]"]
    "/user/1".toList
  have hbroad : Broader "/[section]/[id]".toList "/user/[id]".toList := by
    refine ⟨fun s hs => ?_, "/post/1".toList, by decide, by decide⟩
    rw [Pattern.isMatch_iff, Pattern.fits_iff] at hs ⊢
    have hsegments : Pattern.segments "/user/[id]".toList =
        [.literal [], .literal "user".toList, .placeholder "id".toList] := by decide
    have hsegments' : Pattern.segments "/[section]/[id]".toList =
        [.literal [], .placeholder "section".toList, .placeholder "id".toList] := by decide
    rw [hsegments] at hs
    rw [hsegments']
    generalize splitOn '/' s = xs at hs
    obtain _ | ⟨h₁, _ | ⟨rfl, h₃⟩⟩ := hs
    exact .cons h₁ (.cons (by simp [Segment.Fits]) h₃)
  exact ⟨(hbest _).2 ⟨by decide, by decide, by decide, by decide⟩, hbroad,
    hshadow "/user/[id]".toList (by decide) (by decide) (by decide) _ hbroad⟩

end RouteTable

end FileRoutes
