import FileRoutes.Artifact.Routes
import FileRoutes.Proofs.Artifact.Types

/-!
# Reading the route table file

`Routes.read?` reads `routes.ts` back: the entries of the list of static routes, the matchers with
their routes, and the keys of the table of names with the names of each.  It takes every literal by
the rules of JSON: `Routes.read?_routes`.
-/

namespace FileRoutes

open Reader

namespace Routes

/-- What `routes.ts` says. -/
structure Content where
  /-- The entries of the list of static routes. -/
  statics : List Text
  /-- The sources of the matchers, each with its route. -/
  matchers : List (Text × Text)
  /-- The keys of the table of names, each with its names. -/
  names : List (Text × List Text)
  deriving DecidableEq, Repr

/-! ### Lists -/

/-- Lines between a pair of brackets, when `behind` starts with the closing one. -/
def linesLayout (behind : Text) : Layout := ⟨behind, ['\n'], ['\n'], '\n' :: behind⟩

/-- The names of one route. -/
def namesLayout : Layout := ⟨"],".toList, [], ", ".toList, "],".toList⟩

/-- Take the line of a static route. -/
def static : Reader Text := do
  expect "  ".toList
  let route ← quoted
  expect ",".toList
  return route

/-- Take the line of a matcher. -/
def matcher : Reader (Text × Text) := do
  expect "  \x7b pattern: new RegExp(".toList
  let source ← quoted
  expect "), route: ".toList
  let route ← quoted
  expect " \x7d,".toList
  return (source, route)

/-- Take the line of the names of one route. -/
def namesEntry : Reader (Text × List Text) := do
  expect "  ".toList
  let route ← quoted
  expect ": [".toList
  let names ← namesLayout.list quoted
  return (route, names)

/-- Take the whole file. -/
def content : Reader Content := do
  expect (Artifact.banner ++ Artifact.unlines Artifact.routesOpening ++ Artifact.staticListOpening)
  let statics ← (linesLayout Artifact.matcherListOpening).list static
  let matchers ← (linesLayout Artifact.namesListOpening).list matcher
  let names ← (linesLayout (Artifact.unlines Artifact.routesClosing)).list namesEntry
  return ⟨statics, matchers, names⟩

/-- What a text says as a route table file, if it is one. -/
def read? (t : Text) : Option Content := content.all? t

/-! ### Lines -/

variable {M : Type}

/-- Lines are not taken for what stands behind them, when that does not start with white space. -/
theorem clear_linesLayout {α : Type} {write : α → Text} (behind : Text) {c : Char} {rest : Text}
    (hbehind : behind = c :: rest) (hc : c ≠ '\n') (hc' : c ≠ ' ')
    (hwrite : ∀ x, ∃ t, write x = ' ' :: t) : (linesLayout behind).Clear write := by
  subst hbehind
  refine ⟨fun x s => ?_, fun x s => ?_⟩
  · simp [linesLayout, List.isPrefixOf, hc]
  · obtain ⟨t, ht⟩ := hwrite x
    simp [linesLayout, List.isPrefixOf, ht, hc']

theorem listBody_append (lines : List Text) (behind : Text) :
    Artifact.listBody lines ++ behind = (linesLayout behind).text lines := by
  cases lines with
  | nil => rfl
  | cons t ts => simp [Artifact.listBody, Layout.text, linesLayout, joinWith_cons]

theorem clear_namesLayout : namesLayout.Clear Quoted.encode := ⟨fun _ _ => rfl, fun _ _ => rfl⟩

section Texts

variable (t : Text) (ts : List Text)

theorem text_namesLayout_nil : namesLayout.text [] = "],".toList := rfl

theorem text_namesLayout_cons : namesLayout.text (t :: ts) =
    t ++ (ts.flatMap (", ".toList ++ ·) ++ "],".toList) := rfl

end Texts

theorem namesLine_eq (r : DynamicRoute M) :
    Artifact.namesLine r = "  ".toList ++ (Quoted.encode r.pattern ++ (": [".toList ++
      namesLayout.text (r.params.map Quoted.encode))) := by
  rw [Artifact.namesLine]
  cases r.params with
  | nil =>
    rw [List.map_nil, Artifact.joinTexts, text_namesLayout_nil]
    simp only [List.append_assoc, List.nil_append]
  | cons x xs =>
    rw [List.map_cons, Artifact.joinTexts_cons, text_namesLayout_cons]
    simp only [List.append_assoc]

theorem reads_static (p : Text) : Reads static (Artifact.staticLine p) p := by
  simp only [Artifact.staticLine, List.append_assoc]
  refine (reads_expect _).bind ((reads_quoted p).bind ?_)
  exact (reads_expect _).bind_pure fun _ => p

theorem reads_matcher (r : DynamicRoute M) :
    Reads matcher (Artifact.matcherLine r) (r.matchable, r.pattern) := by
  unfold Artifact.matcherLine
  simp only [List.append_assoc]
  refine (reads_expect _).bind ?_
  refine (reads_quoted r.matchable).bind ?_
  refine (reads_expect _).bind ((reads_quoted r.pattern).bind ?_)
  exact (reads_expect _).bind_pure fun _ => (r.matchable, r.pattern)

theorem reads_namesEntry (r : DynamicRoute M) :
    Reads namesEntry (Artifact.namesLine r) (r.pattern, r.params) := by
  have h := Layout.reads_list clear_namesLayout reads_quoted r.params
  rw [List.map_id'] at h
  rw [namesLine_eq]
  exact (reads_expect _).bind ((reads_quoted _).bind ((reads_expect _).bind
    (h.bind_pure fun names => (r.pattern, names))))

/-! ### The whole file -/

/-- **The route table file is read back from its text.** -/
theorem read?_routes (m : Manifest M) :
    read? (Artifact.routes m) = some ⟨m.staticPatterns,
      m.dynamics.map fun r => (r.matchable, r.pattern),
      m.dynamics.map fun r => (r.pattern, r.params)⟩ := by
  have htext : Artifact.routes m =
      (Artifact.banner ++ Artifact.unlines Artifact.routesOpening ++ Artifact.staticListOpening) ++
        ((linesLayout Artifact.matcherListOpening).text
            (m.staticPatterns.map Artifact.staticLine) ++
          ((linesLayout Artifact.namesListOpening).text (m.dynamics.map Artifact.matcherLine) ++
            (linesLayout (Artifact.unlines Artifact.routesClosing)).text
              (m.dynamics.map Artifact.namesLine))) := by
    rw [Artifact.routes]
    simp only [← listBody_append, List.append_assoc]
  have hstatics := Layout.reads_list (clear_linesLayout Artifact.matcherListOpening
    rfl (by decide) (by decide) fun p => ⟨_, rfl⟩) reads_static m.staticPatterns
  rw [List.map_id'] at hstatics
  have hmatchers := Layout.reads_list (clear_linesLayout Artifact.namesListOpening
    rfl (by decide) (by decide) fun r => ⟨_, rfl⟩) reads_matcher m.dynamics
  have hnames := Layout.reads_list
    (clear_linesLayout (Artifact.unlines Artifact.routesClosing)
      rfl (by decide) (by decide) fun r => ⟨_, rfl⟩) reads_namesEntry m.dynamics
  rw [htext]
  refine Reads.all? ?_
  exact (reads_expect _).bind (hstatics.bind (hmatchers.bind (hnames.bind_pure (Content.mk _ _))))

end Routes

end FileRoutes
