import FileRoutes.Proofs.Pattern.Extraction
import FileRoutes.Proofs.Pattern.Filling

/-!
# What building and matching can answer

Building a path from a pattern gives a path or complains about a placeholder without a value
(`Pattern.build_cases`); a pattern without placeholders is its own path (`Pattern.build_of_static`).

Matching a path against a pattern answers nothing exactly when the path does not match
(`Pattern.matchPath_of_not_isMatch`).  Otherwise it gives a value to each placeholder and to nothing
else, or it complains about a captured segment that cannot be decoded
(`Pattern.matchPath_of_isMatch`).
-/

namespace FileRoutes

namespace Pattern

variable {p s : Text}

/-! ### Building -/

/-- **Building fails only for want of a value.** -/
theorem build_cases (p : Text) (vs : Values) :
    (∃ path, build p vs = .ok path) ∨
      ∃ n ∈ names p, vs.get? n = none ∧ build p vs = .error (.missingParameter p n) := by
  rcases complete_or_firstMissing (names p) vs with hall | ⟨n, hn⟩
  · exact .inl ⟨_, build_of_complete hall⟩
  · exact .inr ⟨n, hn.mem.1, hn.mem.2, build_of_firstMissing hn⟩

/-- **A pattern without placeholders is its own path**, whatever the values. -/
theorem build_of_static (h : isDynamic p = false) (vs : Values) : build p vs = .ok p := by
  have hnames : names p = [] := by
    by_contra hne
    cases h.symm.trans (isDynamic_iff.2 hne)
  have hfilled : ∀ g ∈ segments p, filled (fun _ => []) g = g.text := by
    intro g hg
    cases g with
    | literal t => rfl
    | placeholder n =>
      have hn : n ∈ names p := mem_names.2 hg
      simp [hnames] at hn
  rw [build_eq (f := fun _ => []) (by simp [hnames]), filledPath, List.map_congr_left hfilled,
    ← ofSegments, ofSegments_segments]

/-! ### Matching -/

/-- **A path that matches gives all placeholders a value, or holds one that cannot be decoded.** -/
theorem matchPath_of_isMatch (h : isMatch p s = true) :
    (∃ m, matchPath p s = .ok (some m) ∧ ∀ n, (m.get? n).isSome = true ↔ n ∈ names p) ∨
      ∃ raw ∈ captured (segments p) (splitOn '/' s),
        Percent.decode? raw = none ∧ matchPath p s = .error (.invalidEncoding raw) := by
  rcases matchPath_cases p s with ⟨hno, -⟩ | ⟨-, -, hm⟩ |
    ⟨-, before, name, raw, after, hsplit, -, hraw, hm⟩
  · cases hno.symm.trans h
  · exact .inl ⟨_, hm, fun n => isSome_get?_decodings h⟩
  · refine .inr ⟨raw, ?_, hraw, hm⟩
    rw [← map_snd_bindings (isMatch_iff.1 h), ← rawValues, hsplit]
    simp

end Pattern

end FileRoutes
