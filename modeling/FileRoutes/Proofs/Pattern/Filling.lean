import FileRoutes.Proofs.Pattern.Positions
import FileRoutes.Proofs.Pattern.RoundTrip

/-!
# Filling placeholders

Building a path puts the written form of a value in the place of each placeholder.

* `Pattern.build_of_complete` : with a value for each placeholder a path is built;
  `Pattern.build_of_firstMissing` : otherwise the leftmost placeholder without one is named.
* `Pattern.filledPath_eq_filledPath` : two choices of values give the same path only if they are the
  same.

Two results follow.  What building answers is decided by the values of the pattern's names and by
nothing else (`Pattern.build_decided_by_names`).  And whatever the values are, the path has the
shape of the pattern (`Pattern.build_keeps_shape`).
-/

namespace FileRoutes

namespace Pattern

variable {p path : Text} {vs ws : Values} {ss : List Segment} {n : Text} {f g : Text → Text}

/-- The leftmost of some names without a value. -/
def FirstMissing (ns : List Text) (vs : Values) (n : Text) : Prop :=
  ∃ before after, ns = before ++ n :: after ∧ (∀ m ∈ before, vs.get? m ≠ none) ∧ vs.get? n = none

theorem complete_or_firstMissing (ns : List Text) (vs : Values) :
    (∀ n ∈ ns, vs.get? n ≠ none) ∨ ∃ n, FirstMissing ns vs n := by
  rcases all_or_first (fun n => (vs.get? n).isSome) ns with
    hall | ⟨before, n, after, rfl, hbefore, hn⟩
  · left
    intro n hn
    exact Option.isSome_iff_ne_none.1 (hall n hn)
  · refine .inr ⟨n, before, after, rfl, ?_, by simpa using hn⟩
    intro m hm
    exact Option.isSome_iff_ne_none.1 (hbefore m hm)

theorem FirstMissing.mem {ns : List Text} (h : FirstMissing ns vs n) :
    n ∈ ns ∧ vs.get? n = none := by
  obtain ⟨before, after, rfl, -, hn⟩ := h
  exact ⟨by simp, hn⟩

/-! ### When building fails -/

theorem fill_of_firstMissing (h : FirstMissing (ss.filterMap Segment.name?) vs n) :
    fill p vs ss = .error (.missingParameter p n) := by
  induction ss with
  | nil =>
    obtain ⟨before, after, hns, -⟩ := h
    simp at hns
  | cons g ss ih =>
    cases g with
    | literal t => rw [fill, ih h]
    | placeholder m =>
      obtain ⟨before, after, hns, hbefore, hn⟩ := h
      change m :: ss.filterMap Segment.name? = before ++ n :: after at hns
      cases before with
      | nil =>
        obtain ⟨rfl, -⟩ := List.cons.inj hns
        rw [fill, hn]
      | cons m' before =>
        obtain ⟨rfl, hrest⟩ := List.cons.inj hns
        obtain ⟨v, hv⟩ := Option.ne_none_iff_exists'.1 (hbefore m List.mem_cons_self)
        rw [fill, hv,
          ih ⟨before, after, hrest, fun m hm => hbefore m (List.mem_cons_of_mem _ hm), hn⟩]

theorem build_of_firstMissing (h : FirstMissing (names p) vs n) :
    build p vs = .error (.missingParameter p n) := by
  rw [build, fill_of_firstMissing h]

/-- A value for each placeholder is enough, empty or not. -/
theorem build_of_complete (h : ∀ n ∈ names p, vs.get? n ≠ none) :
    build p vs = .ok (filledPath p vs.valueOf) :=
  build_eq fun n hn => Values.get?_eq_valueOf (h n hn)

theorem build_eq_ok (h : build p vs = .ok path) :
    (∀ n ∈ names p, vs.get? n = some (vs.valueOf n)) ∧ path = filledPath p vs.valueOf := by
  rcases complete_or_firstMissing (names p) vs with hall | ⟨n, hn⟩
  · exact ⟨fun n hn => Values.get?_eq_valueOf (hall n hn),
      Except.ok.inj (h.symm.trans (build_of_complete hall))⟩
  · cases (build_of_firstMissing hn).symm.trans h

theorem build_eq_missing {q : Text} :
    build p vs = .error (.missingParameter q n) ↔ q = p ∧ FirstMissing (names p) vs n := by
  refine ⟨fun h => ?_, by rintro ⟨rfl, hn⟩; exact build_of_firstMissing hn⟩
  rcases complete_or_firstMissing (names p) vs with hall | ⟨m, hm⟩
  · cases (build_of_complete hall).symm.trans h
  · obtain ⟨rfl, rfl⟩ :=
      Error.missingParameter.inj (Except.error.inj ((build_of_firstMissing hm).symm.trans h))
    exact ⟨rfl, hm⟩

/-! ### What a path depends on -/

/-- **Two choices of values give the same path only if they are the same.** -/
theorem filledPath_eq_filledPath :
    filledPath p f = filledPath p g ↔ ∀ n ∈ names p, f n = g n := by
  constructor
  · intro h n hn
    have hsplit := congrArg (splitOn '/') h
    rw [splitOn_filledPath, splitOn_filledPath, List.map_inj_left] at hsplit
    exact Percent.encode_injective (hsplit _ (mem_names.1 hn))
  · intro h
    rw [filledPath, filledPath]
    congr 1
    refine List.map_inj_left.2 fun s hs => ?_
    cases s with
    | literal t => rfl
    | placeholder n => rw [filled, filled, h n (mem_names.2 hs)]

/-- Only the values of the pattern's names matter, also for what is missing. -/
theorem build_congr (h : ∀ n ∈ names p, vs.get? n = ws.get? n) : build p vs = build p ws := by
  rcases complete_or_firstMissing (names p) vs with hall | ⟨n, hn⟩
  · have hws : ∀ n ∈ names p, ws.get? n = some (vs.valueOf n) := fun n hn =>
      (h n hn).symm.trans (Values.get?_eq_valueOf (hall n hn))
    rw [build_of_complete hall, build_eq hws]
  · obtain ⟨before, after, hns, hbefore, hnone⟩ := hn
    have hws : FirstMissing (names p) ws n := by
      refine ⟨before, after, hns, fun m hm => ?_, ?_⟩
      · rw [← h m (by simp [hns, hm])]
        exact hbefore m hm
      · rw [← h n (by simp [hns]), hnone]
    rw [build_of_firstMissing ⟨before, after, hns, hbefore, hnone⟩, build_of_firstMissing hws]

/-- **What building answers is decided by the values of the pattern's names.**  It fails exactly
when one of them has no value, and then names the pattern and the leftmost such name.  Values of
other names never matter.  If all names have values, other values give another path. -/
theorem build_decided_by_names (p : Text) (vs ws : Values) :
    ((∃ q n, build p vs = .error (.missingParameter q n)) ↔ ∃ n ∈ names p, vs.get? n = none) ∧
      (∀ q n, build p vs = .error (.missingParameter q n) ↔
        q = p ∧ FirstMissing (names p) vs n) ∧
      ((∀ n ∈ names p, vs.get? n ≠ none) → ∃ path, build p vs = .ok path) ∧
      ((∀ n ∈ names p, vs.get? n = ws.get? n) → build p vs = build p ws) ∧
      ((∀ n ∈ names p, vs.get? n ≠ none) → (∀ n ∈ names p, ws.get? n ≠ none) →
        (build p vs = build p ws ↔ ∀ n ∈ names p, vs.get? n = ws.get? n)) := by
  refine ⟨⟨?_, ?_⟩, fun q n => build_eq_missing, fun h => ⟨_, build_of_complete h⟩, build_congr,
    ?_⟩
  · rintro ⟨q, n, h⟩
    exact ⟨n, (build_eq_missing.1 h).2.mem⟩
  · rintro ⟨n, hn, hnone⟩
    rcases complete_or_firstMissing (names p) vs with hall | ⟨m, hm⟩
    · exact absurd hnone (hall n hn)
    · exact ⟨p, m, build_of_firstMissing hm⟩
  · intro hvs hws
    refine ⟨?_, build_congr⟩
    intro h n hn
    rw [build_of_complete hvs, build_of_complete hws, Except.ok.injEq,
      filledPath_eq_filledPath] at h
    rw [Values.get?_eq_valueOf (hvs n hn), Values.get?_eq_valueOf (hws n hn), h n hn]

/-- In `/[a]/x/[b]/[a]` the missing `a` is named, an empty `b` is as good as any, `z` does not
matter, and what looks alike after decoding gives two paths. -/
theorem build_decided_by_names_repeated :
    let p := "/[a]/x/[b]/[a]".toList
    let vs : Values := [(['b'], [])]
    let ws : Values := [(['a'], ['/']), (['b'], [])]
    let us : Values := [(['z'], ['q']), (['a'], ['%', '2', 'F']), (['b'], [])]
    build p vs = .error (.missingParameter p ['a']) ∧ (∃ path, build p ws = .ok path) ∧
      build p ws = build p ((['z'], ['q']) :: ws) ∧ build p ws ≠ build p us := by
  intro p vs ws us
  have hmissing : FirstMissing (names p) vs ['a'] :=
    ⟨[], [['b'], ['a']], by decide, by simp, by decide⟩
  refine ⟨((build_decided_by_names p vs ws).2.1 p ['a']).2 ⟨rfl, hmissing⟩,
    (build_decided_by_names p ws us).2.2.1 (by decide),
    (build_decided_by_names p ws ((['z'], ['q']) :: ws)).2.2.2.1 (by decide), fun hsame => ?_⟩
  have hagree := ((build_decided_by_names p ws us).2.2.2.2 (by decide) (by decide)).1 hsame
  exact absurd (hagree ['a'] (by decide)) (by decide)

/-! ### The shape of a path -/

/-- Read as a pattern, a filled segment is a literal. -/
theorem ofText_filled {s : Segment} (hs : s ∈ segments p) (f : Text → Text) :
    Segment.ofText (filled f s) = .literal (filled f s) := by
  cases s with
  | literal t => exact (Segment.wellFormed_iff.1 (wellFormed_of_mem_segments hs)).1
  | placeholder n => exact Segment.ofText_of_notMem (Percent.notMem_encode (by simp) (f n))

theorem isDynamic_filledPath (p : Text) (f : Text → Text) : isDynamic (filledPath p f) = false := by
  rw [isDynamic, segments, splitOn_filledPath, List.any_eq_false]
  intro g hg
  simp only [List.mem_map] at hg
  obtain ⟨_, ⟨s, hs, rfl⟩, rfl⟩ := hg
  rw [ofText_filled hs]
  exact Bool.false_ne_true

/-- **A path has the shape of its pattern**, whatever the values.  It has as many segments.  At each
literal stands the pattern's text.  At each placeholder stands the written form of its own value,
which consists of unreserved characters and escapes.  So no placeholder is left in a path. -/
theorem build_keeps_shape (h : build p vs = .ok path) :
    (splitOn '/' path).length = (splitOn '/' p).length ∧
      (∀ (i : Nat) (t : Text), (segments p)[i]? = some (.literal t) →
        (splitOn '/' p)[i]? = some t ∧ (splitOn '/' path)[i]? = some t) ∧
      (∀ (i : Nat) (n : Text), (segments p)[i]? = some (.placeholder n) → ∃ v, vs.get? n = some v ∧
        (splitOn '/' path)[i]? = some (Percent.encode v) ∧ Percent.Escaped (Percent.encode v) ∧
        ∀ c ∈ ['/', '[', ']', '?', '#'], c ∉ Percent.encode v) ∧
      isDynamic path = false := by
  obtain ⟨hvalues, rfl⟩ := build_eq_ok h
  have hpath (i : Nat) : (splitOn '/' (filledPath p vs.valueOf))[i]? =
      (segments p)[i]?.map (filled vs.valueOf) := by
    rw [splitOn_filledPath, List.getElem?_map]
  refine ⟨by simp [splitOn_filledPath, segments], fun i t hi => ⟨?_, ?_⟩, fun i n hi => ?_,
    isDynamic_filledPath p _⟩
  · rw [segments, List.getElem?_map, Option.map_eq_some_iff] at hi
    obtain ⟨piece, hpiece, hread⟩ := hi
    rw [hpiece, Segment.eq_of_ofText_literal hread]
  · rw [hpath, hi]
    rfl
  · have hn : n ∈ names p := mem_names.2 (List.mem_of_getElem? hi)
    refine ⟨_, hvalues n hn, ?_, Percent.escaped_encode _, fun c hc => Percent.notMem_encode hc _⟩
    rw [hpath, hi]
    rfl

/-- A value made of separators, brackets, a query and a fragment stays one segment of
`/[]/[id]/a?b`. -/
theorem build_keeps_shape_of_query :
    let p := "/[]/[id]/a?b".toList
    let path := "/[]/%5Bx%5D%2F..%2F%3Fq%23%25/a?b".toList
    let vs : Values := [("id".toList, "[x]/../?q#%".toList)]
    build p vs = .ok path ∧ (splitOn '/' path).length = (splitOn '/' p).length ∧
      (splitOn '/' path)[1]? = some ['[', ']'] ∧
      (∃ v, vs.get? "id".toList = some v ∧ (splitOn '/' path)[2]? = some (Percent.encode v) ∧
        Percent.Escaped (Percent.encode v)) ∧ isDynamic path = false := by
  intro p path vs
  have h : build p vs = .ok path := by decide
  obtain ⟨hlength, hliteral, hplaceholder, hstatic⟩ := build_keeps_shape h
  obtain ⟨v, hv, hpiece, hescaped, -⟩ := hplaceholder 2 "id".toList (by decide)
  exact ⟨h, hlength, (hliteral 1 ['[', ']'] (by decide)).2, ⟨v, hv, hpiece, hescaped⟩, hstatic⟩

end Pattern

end FileRoutes
