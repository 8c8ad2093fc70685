import FileRoutes.Proofs.Pattern.Positions
import FileRoutes.Proofs.Pattern.Values
import FileRoutes.Proofs.Text.Percent

/-!
# What matching extracts

A path that matches is read placeholder by placeholder, left to right: the segment opposite a
placeholder is decoded and becomes the value of its name.

* `Pattern.rawValues` : what is read, before decoding; `Pattern.decodings` : after decoding.
* `Pattern.matchPath_cases` : all answers.  Either the path does not match, or all segments can be
  decoded and the decodings are the values, or the first one that cannot be decoded is named,
  whatever stands behind it.

`Pattern.matchPath_extracts` says the same by positions: a name has the decoding of the segment
opposite its last placeholder (`Pattern.LastOpposite`), and the segment that is named is the
leftmost one that cannot be decoded (`Pattern.FirstUndecodable`).
-/

namespace FileRoutes

namespace Pattern

variable {p s : Text} {m : Values} {ss : List Segment} {path : List Text} {name x raw : Text}
  {es before after : List (Text × Text)}

/-- The path segment `x` stands opposite the last placeholder `name`. -/
def LastOpposite (ss : List Segment) (path : List Text) (name x : Text) : Prop :=
  ∃ i, Opposite ss path i name x ∧ ∀ j > i, ∀ y, ¬Opposite ss path j name y

/-- The path segment `x` cannot be decoded, and it is the leftmost one of those opposite
placeholders. -/
def FirstUndecodable (ss : List Segment) (path : List Text) (x : Text) : Prop :=
  ∃ i name, Opposite ss path i name x ∧ Percent.decode? x = none ∧
    ∀ j < i, ∀ n y, Opposite ss path j n y → (Percent.decode? y).isSome = true

/-- What a path has for the placeholders of a pattern, before decoding. -/
def rawValues (p s : Text) : List (Text × Text) := bindings (segments p) (splitOn '/' s)

/-- All the given segments can be decoded. -/
def Readable (es : List (Text × Text)) : Prop := ∀ e ∈ es, (Percent.decode? e.2).isSome = true

/-- The names with their segments decoded. -/
def decodings (es : List (Text × Text)) : List (Text × Text) :=
  es.map fun e => (e.1, (Percent.decode? e.2).getD [])

/-! ### Reading values -/

theorem readable_cons {e : Text × Text} :
    Readable (e :: es) ↔ (Percent.decode? e.2).isSome = true ∧ Readable es :=
  List.forall_mem_cons

theorem map_fst_decodings (es : List (Text × Text)) :
    (decodings es).map Prod.fst = es.map Prod.fst := by
  rw [decodings, List.map_map]
  rfl

/-- What is decoded last for a name is its value. -/
theorem get?_decodings_of_last (hafter : name ∉ after.map Prod.fst) :
    (Values.ofList (decodings (before ++ (name, x) :: after))).get? name =
      some ((Percent.decode? x).getD []) := by
  rw [decodings, List.map_append, List.map_cons]
  exact Values.get?_foldl_of_last (by rwa [← map_fst_decodings] at hafter) _ _

theorem readValues_of_readable (h : Readable es) (vs : Values) :
    readValues vs es = .ok ((decodings es).foldl (fun vs e => vs.insert e.1 e.2) vs) := by
  induction es generalizing vs with
  | nil => rfl
  | cons e es ih =>
    rw [readable_cons] at h
    obtain ⟨value, hvalue⟩ := Option.isSome_iff_exists.1 h.1
    rw [readValues, hvalue, decodings, List.map_cons, List.foldl_cons, hvalue]
    exact ih h.2 _

/-- The first segment that cannot be decoded ends the reading. -/
theorem readValues_of_undecodable (hbefore : Readable before) (hraw : Percent.decode? raw = none)
    (vs : Values) :
    readValues vs (before ++ (name, raw) :: after) = .error (.invalidEncoding raw) := by
  induction before generalizing vs with
  | nil => simp only [List.nil_append, readValues, hraw]
  | cons e before ih =>
    rw [readable_cons] at hbefore
    obtain ⟨value, hvalue⟩ := Option.isSome_iff_exists.1 hbefore.1
    rw [List.cons_append, readValues, hvalue]
    exact ih hbefore.2 _

/-! ### The answers of matching -/

theorem matchPath_of_not_isMatch (h : isMatch p s = false) : matchPath p s = .ok none := by
  rw [isMatch, Option.isSome_eq_false_iff, Option.isNone_iff_eq_none] at h
  rw [matchPath, h]

theorem matchPath_eq (h : isMatch p s = true) :
    matchPath p s = (readValues [] (rawValues p s)).map some := by
  have hcaptures : captures? p s = some (captured (segments p) (splitOn '/' s)) := by
    rw [captures?_eq, alignSegments?_eq_some]
    exact ⟨isMatch_iff.1 h, rfl⟩
  simp only [matchPath, hcaptures, names, zip_captured, rawValues]
  cases readValues [] (bindings (segments p) (splitOn '/' s)) <;> rfl

/-- **The answers of matching a path.** -/
theorem matchPath_cases (p s : Text) :
    (isMatch p s = false ∧ matchPath p s = .ok none) ∨
      (isMatch p s = true ∧ Readable (rawValues p s) ∧
        matchPath p s = .ok (some (Values.ofList (decodings (rawValues p s))))) ∨
      (isMatch p s = true ∧ ∃ before name raw after,
        rawValues p s = before ++ (name, raw) :: after ∧ Readable before ∧
        Percent.decode? raw = none ∧ matchPath p s = .error (.invalidEncoding raw)) := by
  cases hmatch : isMatch p s with
  | false => exact .inl ⟨rfl, matchPath_of_not_isMatch hmatch⟩
  | true =>
    rcases all_or_first (fun e => (Percent.decode? e.2).isSome) (rawValues p s) with
      hread | ⟨before, ⟨name, raw⟩, after, hsplit, hbefore, hraw⟩
    · refine .inr (.inl ⟨rfl, hread, ?_⟩)
      rw [matchPath_eq hmatch, readValues_of_readable hread]
      rfl
    · have hnone : Percent.decode? raw = none := by simpa using hraw
      refine .inr (.inr ⟨rfl, before, name, raw, after, hsplit, hbefore, hnone, ?_⟩)
      rw [matchPath_eq hmatch, hsplit, readValues_of_undecodable hbefore hnone]
      rfl

theorem matchPath_eq_ok (h : matchPath p s = .ok (some m)) :
    isMatch p s = true ∧ Readable (rawValues p s) ∧
      m = Values.ofList (decodings (rawValues p s)) := by
  rcases matchPath_cases p s with ⟨-, hnone⟩ | ⟨hmatch, hread, hm⟩ | ⟨-, _, _, _, _, -, -, -, hm⟩
  · cases hnone.symm.trans h
  · exact ⟨hmatch, hread, Option.some.inj (Except.ok.inj (h.symm.trans hm))⟩
  · cases hm.symm.trans h

theorem isSome_get?_decodings (h : isMatch p s = true) :
    ((Values.ofList (decodings (rawValues p s))).get? name).isSome = true ↔ name ∈ names p := by
  rw [Values.isSome_get?, Values.mem_names_ofList, map_fst_decodings, rawValues,
    map_fst_bindings (isMatch_iff.1 h), names]

/-! ### Positions -/

theorem readable_rawValues_iff : Readable (rawValues p s) ↔
    ∀ i name x, Opposite (segments p) (splitOn '/' s) i name x →
      (Percent.decode? x).isSome = true := by
  constructor
  · intro h i name x hx
    exact h (name, x) (mem_bindings.2 ⟨i, hx⟩)
  · rintro h ⟨name, x⟩ he
    obtain ⟨i, hx⟩ := mem_bindings.1 he
    exact h i name x hx

theorem lastOpposite_of_split (hsplit : bindings ss path = before ++ (name, x) :: after)
    (hafter : name ∉ after.map Prod.fst) : LastOpposite ss path name x := by
  obtain ⟨i, hi, -, hright⟩ := exists_opposite_of_split hsplit
  refine ⟨i, hi, ?_⟩
  intro j hj y hy
  exact hafter (List.mem_map.2 ⟨_, hright j hj name y hy, rfl⟩)

theorem firstUndecodable_of_split (hsplit : bindings ss path = before ++ (name, raw) :: after)
    (hbefore : Readable before) (hraw : Percent.decode? raw = none) :
    FirstUndecodable ss path raw := by
  obtain ⟨i, hi, hleft, -⟩ := exists_opposite_of_split hsplit
  refine ⟨i, name, hi, hraw, ?_⟩
  intro j hj n y hy
  exact hbefore _ (hleft j hj n y hy)

/-- Each name has the decoding of the segment opposite its last placeholder. -/
theorem exists_value (h : isMatch p s = true) (hread : Readable (rawValues p s))
    (hname : name ∈ names p) :
    ∃ x v, LastOpposite (segments p) (splitOn '/' s) name x ∧ Percent.decode? x = some v ∧
      (Values.ofList (decodings (rawValues p s))).get? name = some v ∧ v ≠ [] := by
  have hfits := isMatch_iff.1 h
  rw [names, ← map_fst_bindings hfits] at hname
  obtain ⟨before, x, after, hsplit, hafter⟩ := Values.exists_last hname
  obtain ⟨v, hv⟩ := Option.isSome_iff_exists.1 (hread (name, x) (by simp [rawValues, hsplit]))
  have hlast := lastOpposite_of_split hsplit hafter
  refine ⟨x, v, hlast, hv, ?_, ?_⟩
  · rw [rawValues, hsplit, get?_decodings_of_last hafter, hv, Option.getD_some]
  · -- only an empty segment is read as nothing, and none stands opposite a placeholder
    rintro rfl
    obtain ⟨i, hi, -⟩ := hlast
    exact hi.ne_nil hfits (Percent.decode?_eq_some_nil.1 hv)

/-- **What matching extracts.**  A path that does not match has no values.  In one that matches, if
all segments opposite placeholders can be decoded, the names of the placeholders and no others have
values: each the decoding of the segment opposite the last placeholder of that name, which is never
empty.  If some such segment cannot be decoded, the answer names the leftmost one. -/
theorem matchPath_extracts (p s : Text) :
    (matchPath p s = .ok none ↔ isMatch p s = false) ∧
      (isMatch p s = true →
        (∀ i name x, Opposite (segments p) (splitOn '/' s) i name x →
          (Percent.decode? x).isSome = true) →
        ∃ m, matchPath p s = .ok (some m) ∧
          (∀ name, (m.get? name).isSome = true ↔ name ∈ names p) ∧
          ∀ name ∈ names p, ∃ x v, LastOpposite (segments p) (splitOn '/' s) name x ∧
            Percent.decode? x = some v ∧ m.get? name = some v ∧ v ≠ []) ∧
      (isMatch p s = true →
        (∃ i name x, Opposite (segments p) (splitOn '/' s) i name x ∧ Percent.decode? x = none) →
        ∃ x, FirstUndecodable (segments p) (splitOn '/' s) x ∧
          matchPath p s = .error (.invalidEncoding x)) := by
  rw [← readable_rawValues_iff]
  rcases matchPath_cases p s with ⟨hno, hm⟩ | ⟨hmatch, hread, hm⟩ |
    ⟨hmatch, before, name, raw, after, hsplit, hbefore, hraw, hm⟩
  · simp [hno, hm]
  · refine ⟨by simp [hmatch, hm], ?_, ?_⟩
    · intro _ _
      exact ⟨_, hm, fun name => isSome_get?_decodings hmatch, fun name => exists_value hmatch hread⟩
    · rintro - ⟨i, name, x, hx, hnone⟩
      have hsome := readable_rawValues_iff.1 hread i name x hx
      rw [hnone] at hsome
      cases hsome
  · refine ⟨by simp [hmatch, hm], ?_, ?_⟩
    · intro _ hread
      have hsome := hread (name, raw) (by simp [hsplit])
      rw [hraw] at hsome
      cases hsome
    · intro _ _
      exact ⟨raw, firstUndecodable_of_split hsplit hbefore hraw, hm⟩

/-- Of the two values for `a` the last one counts, with its malformed escape kept; and of two
segments that cannot be decoded the first one is named. -/
theorem matchPath_extracts_repeated_name :
    let p := "/[a]/[b]/[a]".toList
    let s := "/1/%2f/%C3%a9%4".toList
    let bad := "/%41/%FF/%C3".toList
    (∃ m, matchPath p s = .ok (some m) ∧ m.get? ['a'] = some ['é', '%', '4'] ∧
      m.get? ['b'] = some ['/'] ∧ m.get? ['c'] = none) ∧
    FirstUndecodable (segments p) (splitOn '/' bad) ['%', 'F', 'F'] ∧
    matchPath p bad = .error (.invalidEncoding ['%', 'F', 'F']) := by
  intro p s bad
  have hreadable : ∀ e ∈ rawValues p s, (Percent.decode? e.2).isSome = true := by decide
  obtain ⟨m, hm, hkeys, -⟩ :=
    (matchPath_extracts p s).2.1 (by decide) (readable_rawValues_iff.1 hreadable)
  obtain ⟨x, hx, hbad⟩ := (matchPath_extracts p bad).2.2 (by decide)
    ⟨2, ['b'], ['%', 'F', 'F'], ⟨by decide, by decide⟩, by decide⟩
  have hread : matchPath p s = .ok (some [(['a'], ['é', '%', '4']), (['b'], ['/'])]) := by decide
  have hnamed : matchPath p bad = .error (.invalidEncoding ['%', 'F', 'F']) := by decide
  obtain rfl := Option.some.inj (Except.ok.inj (hm.symm.trans hread))
  obtain rfl := Error.invalidEncoding.inj (Except.error.inj (hbad.symm.trans hnamed))
  refine ⟨⟨_, hm, by decide, by decide, ?_⟩, hx, hbad⟩
  rw [← Option.not_isSome_iff_eq_none, hkeys]
  decide

end Pattern

end FileRoutes
