import FileRoutes.Proofs.Pattern.Extraction
import FileRoutes.Proofs.Pattern.Filling

/-!
# Rebuilding a path that matches

The values that were read from a path build a path again.  It need not be the same one, since
decoding forgets how a segment was written, but it matches with the same values and is rebuilt as
itself (`Pattern.rebuild_of_matchPath`).  So rebuilding brings paths into a normal form, in which
the segments opposite placeholders are written the way `Percent.encode` writes them.
-/

namespace FileRoutes

namespace Pattern

variable {p s : Text} {m : Values} {ss : List Segment} {path : List Text} {f : Text → Text}

/-- Filling gives a path back when it writes the segments opposite placeholders as they are. -/
theorem map_filled_eq (h : Fits ss path) :
    ss.map (filled f) = path ↔ ∀ e ∈ bindings ss path, Percent.encode (f e.1) = e.2 := by
  rw [fits_iff] at h
  induction h with
  | nil => simp [bindings]
  | @cons g x ss path hfit _ ih =>
    rw [List.map_cons, List.cons.injEq, ih]
    cases g with
    | literal t =>
      obtain rfl : x = t := hfit
      simp [filled, bindings, binding?, Segment.name?]
    | placeholder n => simp [filled, bindings, binding?, Segment.name?]

theorem filledPath_eq_iff (h : isMatch p s = true) :
    filledPath p f = s ↔ ∀ e ∈ rawValues p s, Percent.encode (f e.1) = e.2 := by
  rw [rawValues, ← map_filled_eq (isMatch_iff.1 h), ← splitOn_filledPath]
  constructor
  · exact congrArg _
  · intro hsegments
    rw [← joinWith_splitOn '/' s, ← hsegments, joinWith_splitOn]

/-- The values of a path that matches are those of its placeholders, and none is empty. -/
theorem values_of_matchPath (h : matchPath p s = .ok (some m)) :
    (∀ n ∈ names p, m.get? n ≠ none) ∧ ∀ n ∈ names p, m.valueOf n ≠ [] := by
  obtain ⟨hmatch, hread, rfl⟩ := matchPath_eq_ok h
  constructor <;> intro n hn <;> obtain ⟨x, v, -, -, hv, hne⟩ := exists_value hmatch hread hn
  · simp [hv]
  · simpa [Values.valueOf, hv] using hne

/-- The rebuilt path has the values of the path that was matched. -/
theorem matchPath_rebuilt (h : matchPath p s = .ok (some m)) :
    matchPath p (filledPath p m.valueOf) = .ok (some m) := by
  rw [matchPath_filledPath (values_of_matchPath h).2]
  obtain ⟨hmatch, -, rfl⟩ := matchPath_eq_ok h
  set es := decodings (rawValues p s) with hes
  have hnames : es.map Prod.fst = names p := by
    rw [hes, map_fst_decodings, rawValues, map_fst_bindings (isMatch_iff.1 hmatch), names]
  have hgiven : es.map (fun e => (e.1, (Values.ofList es).valueOf e.1)) =
      (names p).map fun n => (n, (Values.ofList es).valueOf n) := by
    rw [← hnames, List.map_map]
    rfl
  conv_rhs => rw [← Values.ofList_valueOf es, hgiven, Values.ofList, List.foldl_map]

/-- When no name occurs twice, the value of a name is the decoding of the segment opposite it. -/
theorem valueOf_of_opposite (h : matchPath p s = .ok (some m)) (hnodup : (names p).Nodup) {i : Nat}
    {name x : Text} (hx : Opposite (segments p) (splitOn '/' s) i name x) :
    Percent.decode? x = some (m.valueOf name) := by
  obtain ⟨hmatch, hread, rfl⟩ := matchPath_eq_ok h
  have hname : name ∈ names p := mem_names.2 (List.mem_of_getElem? hx.1)
  obtain ⟨y, v, ⟨j, hy, -⟩, hv, hget, -⟩ := exists_value hmatch hread hname
  obtain rfl := hx.position_unique hy hnodup
  obtain rfl : x = y := Option.some.inj (hx.2.symm.trans hy.2)
  rw [hv, Values.valueOf, hget, Option.getD_some]

/-- **Rebuilding a path that matches brings it into a normal form.**  The values that were read from
it build a path, which matches with the same values and is rebuilt as itself.  When no name occurs
twice in the pattern, it is the path that was read exactly if every segment opposite a placeholder
is the written form of some text. -/
theorem rebuild_of_matchPath (h : matchPath p s = .ok (some m)) :
    ∃ t, build p m = .ok t ∧ matchPath p t = .ok (some m) ∧
      (∀ m', matchPath p t = .ok (some m') → build p m' = .ok t) ∧
      ((names p).Nodup → (t = s ↔
        ∀ i name x, Opposite (segments p) (splitOn '/' s) i name x →
          ∃ v, x = Percent.encode v)) := by
  have hbuild := build_of_complete (values_of_matchPath h).1
  have hagain := matchPath_rebuilt h
  refine ⟨_, hbuild, hagain, ?_, ?_⟩
  · intro m' hm'
    obtain rfl := Option.some.inj (Except.ok.inj (hagain.symm.trans hm'))
    exact hbuild
  · intro hnodup
    rw [filledPath_eq_iff (matchPath_eq_ok h).1]
    constructor
    · intro hsame i name x hx
      exact ⟨_, (hsame _ (mem_bindings.2 ⟨i, hx⟩)).symm⟩
    · rintro hwritten ⟨name, x⟩ he
      obtain ⟨i, hx⟩ := mem_bindings.1 he
      obtain ⟨v, rfl⟩ := hwritten i name x hx
      -- what was written is read as what it was written from
      have hv := valueOf_of_opposite h hnodup hx
      rw [Percent.decode?_encode, Option.some.injEq] at hv
      rw [hv]

/-- Lower-case digits and a malformed escape are rebuilt in the normal form. -/
theorem rebuild_of_matchPath_lowerCase :
    let p := "/[a]/x/[b]".toList
    let s := "/%c3%a9/x/1%zz".toList
    let t := "/%C3%A9/x/1%25zz".toList
    let m : Values := [(['a'], ['é']), (['b'], ['1', '%', 'z', 'z'])]
    matchPath p s = .ok (some m) ∧ (names p).Nodup ∧ build p m = .ok t ∧
      matchPath p t = .ok (some m) ∧
      ¬∀ i name x, Opposite (segments p) (splitOn '/' s) i name x → ∃ v, x = Percent.encode v := by
  intro p s t m
  have h : matchPath p s = .ok (some m) := by decide
  have hnodup : (names p).Nodup := by decide
  obtain ⟨t', hbuild, hmatch, -, hsame⟩ := rebuild_of_matchPath h
  have ht : build p m = .ok t := by decide
  obtain rfl := Except.ok.inj (hbuild.symm.trans ht)
  exact ⟨h, hnodup, hbuild, hmatch, fun hw => absurd ((hsame hnodup).2 hw) (by decide)⟩

end Pattern

end FileRoutes
