import FileRoutes.Pattern.Build
import FileRoutes.Proofs.Pattern.Matching
import FileRoutes.Proofs.Pattern.Values
import FileRoutes.Proofs.Text.Percent

/-!
# Building a path and matching it

A path that was built from a pattern and values has the pattern's segments: literals verbatim,
and at each placeholder the written form of its value (`Pattern.build_eq`).  Matching it reads the
values back, unless one of them is empty: a placeholder never stands for an empty segment
(`Pattern.matchPath_build`).
-/

namespace FileRoutes

namespace Pattern

/-- The path segment for a segment of a pattern, when `f` gives the values. -/
def filled (f : Text → Text) : Segment → Text
  | .literal t => t
  | .placeholder n => Percent.encode (f n)

/-- The path for a pattern, when `f` gives the values. -/
def filledPath (p : Text) (f : Text → Text) : Text := joinWith '/' ((segments p).map (filled f))

variable {p : Text} {f : Text → Text}

/-! ### Building -/

theorem fill_eq {vs : Values} {ss : List Segment}
    (h : ∀ n ∈ ss.filterMap Segment.name?, vs.get? n = some (f n)) :
    fill p vs ss = .ok (ss.map (filled f)) := by
  induction ss with
  | nil => rfl
  | cons g ss ih =>
    have ih := ih fun n hn => h n (by
      obtain ⟨g', hg', hn⟩ := List.mem_filterMap.1 hn
      exact List.mem_filterMap.2 ⟨g', List.mem_cons_of_mem g hg', hn⟩)
    cases g with
    | literal t => rw [fill, ih]; rfl
    | placeholder n =>
      have hn : vs.get? n = some (f n) := h n (by simp [Segment.name?])
      rw [fill, hn]
      simp only [ih]
      rfl

theorem build_eq {vs : Values} (h : ∀ n ∈ names p, vs.get? n = some (f n)) :
    build p vs = .ok (filledPath p f) := by
  rw [build, fill_eq h, filledPath]

/-- What is built has the segments it was built from. -/
theorem splitOn_filledPath (p : Text) (f : Text → Text) :
    splitOn '/' (filledPath p f) = (segments p).map (filled f) := by
  refine splitOn_joinWith (by simpa using segments_ne_nil p) fun s hs => ?_
  obtain ⟨g, hg, rfl⟩ := List.mem_map.1 hs
  cases g with
  | literal t => exact slash_notMem_of_literal hg
  | placeholder n => exact Percent.notMem_encode List.mem_cons_self (f n)

/-! ### Matching what was built -/

theorem fits_filled {ss : List Segment} :
    Fits ss (ss.map (filled f)) ↔ ∀ n ∈ ss.filterMap Segment.name?, f n ≠ [] := by
  rw [fits_iff]
  induction ss with
  | nil => simp
  | cons g ss ih =>
    rw [List.map_cons, List.forall₂_cons, ih]
    cases g <;> simp [Segment.Fits, filled, Segment.name?, List.filterMap_cons]

theorem captured_filled (ss : List Segment) (f : Text → Text) :
    captured ss (ss.map (filled f)) =
      (ss.filterMap Segment.name?).map fun n => Percent.encode (f n) := by
  induction ss with
  | nil => rfl
  | cons g ss ih => cases g <;> simp [filled, Segment.name?, List.filterMap_cons, ih]

theorem readValues_encoded (f : Text → Text) (ns : List Text) (vs : Values) :
    readValues vs (ns.zip (ns.map fun n => Percent.encode (f n))) =
      .ok (ns.foldl (fun vs n => vs.insert n (f n)) vs) := by
  induction ns generalizing vs with
  | nil => rfl
  | cons n ns ih =>
    rw [List.map_cons, List.zip_cons_cons, readValues, Percent.decode?_encode]
    exact ih _

theorem captures?_filledPath (h : ∀ n ∈ names p, f n ≠ []) :
    captures? p (filledPath p f) = some ((names p).map fun n => Percent.encode (f n)) := by
  rw [captures?_eq, splitOn_filledPath, alignSegments?_eq_some]
  exact ⟨fits_filled.2 h, (captured_filled _ f).symm⟩

/-- Values that are not empty are read back. -/
theorem matchPath_filledPath (h : ∀ n ∈ names p, f n ≠ []) :
    matchPath p (filledPath p f) =
      .ok (some ((names p).foldl (fun vs n => vs.insert n (f n)) [])) := by
  rw [matchPath, captures?_filledPath h]
  simp only [readValues_encoded]

/-- A path in which some value is empty does not match. -/
theorem matchPath_filledPath_of_empty {n : Text} (hn : n ∈ names p) (h : f n = []) :
    matchPath p (filledPath p f) = .ok none := by
  -- the empty segment stands opposite a placeholder, which it does not fit
  have hnone : captures? p (filledPath p f) = none := by
    rw [captures?_eq, splitOn_filledPath]
    refine Option.eq_none_iff_forall_ne_some.2 fun cs hcs => ?_
    exact fits_filled.1 (alignSegments?_eq_some.1 hcs).1 n hn h
  rw [matchPath, hnone]

/-- **Building a path and matching it gives the values back.**  With a value for each placeholder
a path is built.  If none of these values is empty, matching it gives exactly them; if one is, the
path does not match.  Reading the values never fails. -/
theorem matchPath_build (p : Text) (vs : Values) (h : ∀ n ∈ names p, (vs.get? n).isSome) :
    ∃ path, build p vs = .ok path ∧
      ((∀ n ∈ names p, vs.get? n ≠ some []) →
        ∃ m, matchPath p path = .ok (some m) ∧
          ∀ n, m.get? n = if n ∈ names p then vs.get? n else none) ∧
      ((∃ n ∈ names p, vs.get? n = some []) → matchPath p path = .ok none) := by
  -- a total function with the given values, so that no lookup has to be carried along
  obtain ⟨f, hf⟩ : ∃ f : Text → Text, ∀ n ∈ names p, vs.get? n = some (f n) := by
    refine ⟨fun n => (vs.get? n).getD [], fun n hn => ?_⟩
    obtain ⟨v, hv⟩ := Option.isSome_iff_exists.1 (h n hn)
    simp only [hv, Option.getD_some]
  refine ⟨filledPath p f, build_eq hf, fun hne => ?_, fun ⟨n, hn, hv⟩ => ?_⟩
  · have hne' : ∀ n ∈ names p, f n ≠ [] := fun n hn he => hne n hn (by rw [hf n hn, he])
    refine ⟨_, matchPath_filledPath hne', fun n => ?_⟩
    rw [Values.get?_foldl_insert]
    split
    · rename_i hn
      rw [hf n hn]
    · rfl
  · have he : f n = [] := Option.some.inj ((hf n hn).symm.trans hv)
    exact matchPath_filledPath_of_empty hn he

/-- The pattern `/[a]/(x)/[a]` with the value `/%é` for its repeated name. -/
theorem matchPath_build_repeated_name :
    let p := ['/', '[', 'a', ']', '/', '(', 'x', ')', '/', '[', 'a', ']']
    let vs : Values := [(['b'], []), (['a'], ['/', '%', 'é'])]
    (∀ n ∈ names p, (vs.get? n).isSome) ∧
      ∃ path m, build p vs = .ok path ∧ matchPath p path = .ok (some m) ∧
        m.get? ['a'] = some ['/', '%', 'é'] ∧ m.get? ['b'] = none := by
  intro p vs
  have h : ∀ n ∈ names p, (vs.get? n).isSome := by decide
  obtain ⟨path, hbuild, hmatch, -⟩ := matchPath_build p vs h
  obtain ⟨m, hm, hget⟩ := hmatch (by decide)
  exact ⟨h, path, m, hbuild, hm, hget ['a'], hget ['b']⟩

end Pattern

end FileRoutes
