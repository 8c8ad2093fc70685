import FileRoutes.Proofs.Artifact.Routes
import FileRoutes.Proofs.Route.Manifest

/-!
# Artifacts carry the manifest

Each of the two generated files with content says which patterns the routes have, in their order,
and everything else that it says follows from the patterns.  So both files are functions of the two
lists of patterns (`Manifest.ofPatterns`), and neither is the same for two manifests that differ
in one of the lists.

- `Manifest.dynamics_ofRecords`: what a manifest holds besides patterns and payloads follows from
  the patterns.
- `Manifest.artifacts_faithful`: what is read back from the files, and when two files are equal.
-/

namespace FileRoutes

variable {M : Type}

/-! ### Repeated names -/

namespace Artifact

theorem filter_firstOccurrences (q : Text → Bool) (l : List Text) :
    (firstOccurrences l).filter q = firstOccurrences (l.filter q) := by
  induction l with
  | nil => rfl
  | cons x l ih =>
    rw [firstOccurrences, List.filter_cons, List.filter_cons, List.filter_filter]
    simp only [Bool.and_comm (q _), ← List.filter_filter, ih]
    split
    · rfl
    · -- without `x`, nothing is left to take out
      rename_i hx
      refine List.filter_eq_self.2 fun y hy => decide_eq_true fun heq => hx ?_
      rw [← ih, List.mem_filter, heq] at hy
      exact hy.2

theorem firstOccurrences_eq_eraseDups : (l : List Text) → firstOccurrences l = l.eraseDups
  | [] => rfl
  | x :: l => by
    rw [firstOccurrences, filter_firstOccurrences, firstOccurrences_eq_eraseDups,
      List.eraseDups_cons]
    simp [beq_eq_decide]
termination_by l => l.length
decreasing_by exact Nat.lt_succ_of_le (List.length_filter_le _ l)

end Artifact

/-! ### Manifests from patterns -/

namespace Manifest

/-- The routes with some patterns, without payloads. -/
def ofPatterns (statics dynamics : List Text) : Manifest Unit where
  statics := statics.map fun p => ⟨p, ()⟩
  dynamics := dynamics.map fun p => ⟨p, Pattern.matchable p, Pattern.names p, ()⟩

/-- Matchers and names in a manifest are those of the patterns. -/
theorem dynamics_ofRecords (rs : List (Record M)) {r : DynamicRoute M}
    (h : r ∈ (ofRecords rs).dynamics) :
    r.matchable = Pattern.matchable r.pattern ∧ r.params = Pattern.names r.pattern := by
  rw [ofRecords_eq] at h
  obtain ⟨s, -, rfl⟩ := List.mem_map.1 h
  exact ⟨rfl, rfl⟩

theorem map_dynamics_ofRecords {α : Type} (rs : List (Record M)) (f : Text → Text → List Text → α) :
    ((ofRecords rs).dynamics.map fun r => f r.pattern r.matchable r.params) =
      (ofRecords rs).dynamicPatterns.map fun p => f p (Pattern.matchable p) (Pattern.names p) := by
  rw [dynamicPatterns, List.map_map]
  refine List.map_congr_left fun r hr => ?_
  obtain ⟨hmatchable, hparams⟩ := dynamics_ofRecords rs hr
  rw [Function.comp_apply, hmatchable, hparams]

section Patterns

variable (statics dynamics : List Text) (rs : List (Record M))

@[simp]
theorem staticPatterns_ofPatterns : (ofPatterns statics dynamics).staticPatterns = statics := by
  simp [ofPatterns, staticPatterns, Function.comp_def]

@[simp]
theorem dynamicPatterns_ofPatterns : (ofPatterns statics dynamics).dynamicPatterns = dynamics := by
  simp [ofPatterns, dynamicPatterns, Function.comp_def]

/-- The types file is a function of the patterns. -/
theorem types_ofRecords : Artifact.types (ofRecords rs) = Artifact.types
    (ofPatterns (ofRecords rs).staticPatterns (ofRecords rs).dynamicPatterns) := by
  have hlines : (ofRecords rs).dynamics.map Artifact.paramsLine =
      (ofPatterns (ofRecords rs).staticPatterns (ofRecords rs).dynamicPatterns).dynamics.map
        Artifact.paramsLine := by
    rw [ofPatterns, List.map_map]
    exact map_dynamics_ofRecords rs fun p q ns =>
      Artifact.paramsLine (⟨p, q, ns, ()⟩ : DynamicRoute Unit)
  simp only [Artifact.types, staticPatterns_ofPatterns, dynamicPatterns_ofPatterns,
    Types.paramsInterface_eq, hlines]

/-- The route table file is a function of the patterns. -/
theorem routes_ofRecords : Artifact.routes (ofRecords rs) = Artifact.routes
    (ofPatterns (ofRecords rs).staticPatterns (ofRecords rs).dynamicPatterns) := by
  have hmatchers : (ofRecords rs).dynamics.map Artifact.matcherLine =
      (ofPatterns (ofRecords rs).staticPatterns (ofRecords rs).dynamicPatterns).dynamics.map
        Artifact.matcherLine := by
    rw [ofPatterns, List.map_map]
    exact map_dynamics_ofRecords rs fun p q ns =>
      Artifact.matcherLine (⟨p, q, ns, ()⟩ : DynamicRoute Unit)
  have hnames : (ofRecords rs).dynamics.map Artifact.namesLine =
      (ofPatterns (ofRecords rs).staticPatterns (ofRecords rs).dynamicPatterns).dynamics.map
        Artifact.namesLine := by
    rw [ofPatterns, List.map_map]
    exact map_dynamics_ofRecords rs fun p q ns =>
      Artifact.namesLine (⟨p, q, ns, ()⟩ : DynamicRoute Unit)
  simp only [Artifact.routes, staticPatterns_ofPatterns, hmatchers, hnames]

end Patterns

/-! ### What the files say -/

variable {N : Type}

theorem types_eq_iff (rs : List (Record M)) (rs' : List (Record N)) :
    Artifact.types (ofRecords rs) = Artifact.types (ofRecords rs') ↔
      (ofRecords rs).staticPatterns = (ofRecords rs').staticPatterns ∧
        (ofRecords rs).dynamicPatterns = (ofRecords rs').dynamicPatterns := by
  constructor
  · intro h
    have hread := congrArg Types.read? h
    rw [Types.read?_types, Types.read?_types, Option.some_inj, Types.Content.mk.injEq] at hread
    exact ⟨hread.1, hread.2.1⟩
  · rintro ⟨hstatic, hdynamic⟩
    rw [types_ofRecords, hstatic, hdynamic, ← types_ofRecords]

theorem routes_eq_iff (rs : List (Record M)) (rs' : List (Record N)) :
    Artifact.routes (ofRecords rs) = Artifact.routes (ofRecords rs') ↔
      (ofRecords rs).staticPatterns = (ofRecords rs').staticPatterns ∧
        (ofRecords rs).dynamicPatterns = (ofRecords rs').dynamicPatterns := by
  constructor
  · intro h
    have hread := congrArg Routes.read? h
    rw [Routes.read?_routes, Routes.read?_routes, Option.some_inj, Routes.Content.mk.injEq] at hread
    have hdynamic := congrArg (List.map Prod.fst) hread.2.2
    rw [List.map_map, List.map_map] at hdynamic
    exact ⟨hread.1, hdynamic⟩
  · rintro ⟨hstatic, hdynamic⟩
    rw [routes_ofRecords, hstatic, hdynamic, ← routes_ofRecords]

/-- **The artifacts carry the manifest.**  Read back by the rules of JSON, the literals of the types
file are the static patterns, the dynamic patterns, and for each dynamic pattern its names without
repeats; those of the route table file are the static patterns, the matcher of each dynamic
pattern with its route, and for each dynamic pattern all its names.  Two manifests with the same
types file, or with the same route table file, have the same patterns in the same order. -/
theorem artifacts_faithful (rs : List (Record M)) :
    Types.read? (Artifact.types (ofRecords rs)) =
        some
          { statics := (ofRecords rs).staticPatterns
            dynamics := (ofRecords rs).dynamicPatterns
            params := (ofRecords rs).dynamicPatterns.map fun p =>
              (p, (Pattern.names p).eraseDups) } ∧
      Routes.read? (Artifact.routes (ofRecords rs)) =
        some
          { statics := (ofRecords rs).staticPatterns
            matchers := (ofRecords rs).dynamicPatterns.map fun p => (Pattern.matchable p, p)
            names := (ofRecords rs).dynamicPatterns.map fun p => (p, Pattern.names p) } ∧
      ∀ (N : Type) (rs' : List (Record N)),
        (Artifact.types (ofRecords rs) = Artifact.types (ofRecords rs') ↔
          (ofRecords rs).staticPatterns = (ofRecords rs').staticPatterns ∧
            (ofRecords rs).dynamicPatterns = (ofRecords rs').dynamicPatterns) ∧
        (Artifact.routes (ofRecords rs) = Artifact.routes (ofRecords rs') ↔
          (ofRecords rs).staticPatterns = (ofRecords rs').staticPatterns ∧
            (ofRecords rs).dynamicPatterns = (ofRecords rs').dynamicPatterns) := by
  refine ⟨?_, ?_, fun N rs' => ⟨types_eq_iff rs rs', routes_eq_iff rs rs'⟩⟩
  · have hparams := map_dynamics_ofRecords rs fun p _ ns => (p, Artifact.firstOccurrences ns)
    simp only [Artifact.firstOccurrences_eq_eraseDups] at hparams
    rw [Types.read?_types]
    simp only [Artifact.firstOccurrences_eq_eraseDups, hparams]
  · have hmatchers := map_dynamics_ofRecords rs fun p q _ => (q, p)
    have hnames := map_dynamics_ofRecords rs fun p _ ns => (p, ns)
    rw [Routes.read?_routes, hmatchers, hnames]

end Manifest

end FileRoutes
