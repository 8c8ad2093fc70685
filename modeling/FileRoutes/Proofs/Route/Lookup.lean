import FileRoutes.Proofs.Pattern.Outcomes
import FileRoutes.Proofs.Route.Precedence

/-!
# Questions to a route table

A table is asked which dynamic route a path belongs to, what the placeholders of a route stand for
in a path, and which path a route has.  Each question searches the routes in its own way: by
matching, by comparing dynamic routes, by comparing all routes.  The answers agree
(`RouteTable.Coherent`), whatever records the table was made from:
`RouteTable.coherent_ofRecords`.
-/

namespace FileRoutes

variable {M : Type}

namespace Manifest

theorem mem_staticPatterns_ofRecords {rs : List (Record M)} {p : Text} :
    p ∈ (ofRecords rs).staticPatterns ↔
      p ∈ rs.map Record.pattern ∧ Pattern.isDynamic p = false := by
  have hfirsts : p ∈ (Record.firsts rs).map Record.pattern ↔ p ∈ rs.map Record.pattern :=
    Record.mem_map_pattern_firsts
  have hstatics : (ofRecords rs).staticPatterns =
      ((Record.firsts rs).filter fun r => !r.isDynamic).map Record.pattern := by
    rw [ofRecords_eq, partition, staticPatterns, List.map_map]
    rfl
  rw [hstatics, ← hfirsts, List.mem_map, List.mem_map]
  constructor
  · rintro ⟨r, hr, rfl⟩
    obtain ⟨hr, hstatic⟩ := List.mem_filter.1 hr
    exact ⟨⟨r, hr, rfl⟩, by simpa [Record.isDynamic] using hstatic⟩
  · rintro ⟨⟨r, hr, rfl⟩, hstatic⟩
    exact ⟨r, List.mem_filter.2 ⟨hr, by simpa [Record.isDynamic] using hstatic⟩, rfl⟩

end Manifest

namespace RouteTable

variable {t : RouteTable} {rs : List (Record M)} {route path : Text} {vs : Values}

/-! ### The routes of a table -/

theorem mem_dynamics {rs : List (Record M)} :
    route ∈ (ofManifest (Manifest.ofRecords rs)).dynamics ↔
      route ∈ rs.map Record.pattern ∧ Pattern.isDynamic route = true :=
  Manifest.mem_dynamicPatterns_ofRecords

theorem mem_statics {rs : List (Record M)} :
    route ∈ (ofManifest (Manifest.ofRecords rs)).statics ↔
      route ∈ rs.map Record.pattern ∧ Pattern.isDynamic route = false :=
  Manifest.mem_staticPatterns_ofRecords

theorem contains_iff : t.contains route = true ↔ route ∈ t.statics ∨ route ∈ t.dynamics := by
  simp [contains]

/-- A table contains exactly the patterns of the records. -/
theorem contains_ofRecords {rs : List (Record M)} :
    (ofManifest (Manifest.ofRecords rs)).contains route = true ↔
      route ∈ rs.map Record.pattern :=
  Manifest.contains_ofRecords

/-! ### Single questions -/

theorem extract_of_mem (h : route ∈ t.dynamics) (path : Text) :
    t.extract route path = Pattern.matchPath route path := by
  simp [extract, h]

theorem build_of_contains (h : t.contains route = true) (vs : Values) :
    t.build route vs = Pattern.build route vs := by
  simp [build, h]

/-- Looking for the values in a path fails for a route that is not dynamic, and otherwise not for
want of the route. -/
theorem extract_unknownRoute {r : Text} :
    t.extract route path = .error (.unknownRoute r) ↔ r = route ∧ route ∉ t.dynamics := by
  by_cases h : route ∈ t.dynamics
  · rw [extract_of_mem h]
    simp only [h, not_true, and_false, iff_false]
    cases hmatch : Pattern.isMatch route path with
    | false => simp [Pattern.matchPath_of_not_isMatch hmatch]
    | true =>
      obtain ⟨m, hm, -⟩ | ⟨raw, -, -, hm⟩ := Pattern.matchPath_of_isMatch hmatch <;> simp [hm]
  · simp [extract, h, eq_comm]

/-- Building fails for a route that the table does not contain, and otherwise not for want of the
route. -/
theorem build_unknownRoute {r : Text} :
    t.build route vs = .error (.unknownRoute r) ↔ r = route ∧ t.contains route = false := by
  cases h : t.contains route with
  | false => simp [build, h, eq_comm]
  | true =>
    rw [build_of_contains h]
    obtain ⟨path, hpath⟩ | ⟨n, -, -, hpath⟩ := Pattern.build_cases route vs <;> simp [hpath]

/-- A path that a dynamic route matches belongs to that route or to one in front of it. -/
theorem exists_match?_of_isMatch (h : route ∈ t.dynamics)
    (hmatch : Pattern.isMatch route path = true) :
    ∃ before behind q, t.dynamics = before ++ route :: behind ∧ q ∈ before ++ [route] ∧
      t.match? path = some q := by
  obtain ⟨before, behind, hsplit⟩ := List.append_of_mem h
  have hsome : ((before ++ [route]).find? fun p => Pattern.isMatch p path).isSome = true :=
    List.find?_isSome.2 ⟨route, by simp, hmatch⟩
  obtain ⟨q, hq⟩ := Option.isSome_iff_exists.1 hsome
  refine ⟨before, behind, q, hsplit, List.mem_of_find?_eq_some hq, ?_⟩
  rw [match?, hsplit, List.append_cons, List.find?_append, hq, Option.some_or]

/-! ### All questions -/

/-- The answers of a table that was made from the given patterns agree. -/
structure Coherent (t : RouteTable) (patterns : List Text) : Prop where
  /-- The route that a path belongs to has values for exactly its placeholders in it, unless a
  captured segment cannot be decoded. -/
  matched : ∀ path route, t.match? path = some route → route ∈ t.dynamics ∧
    ((∃ m, t.extract route path = .ok (some m) ∧
      ∀ n, (m.get? n).isSome = true ↔ n ∈ Pattern.names route) ∨
    ∃ raw ∈ Pattern.captured (Pattern.segments route) (splitOn '/' path),
      Percent.decode? raw = none ∧ t.extract route path = .error (.invalidEncoding raw))
  /-- A path that belongs to no route has values for none. -/
  unmatched : ∀ path, t.match? path = none →
    ∀ route ∈ t.dynamics, t.extract route path = .ok none
  /-- A path that was built from values that are not empty belongs to the route or to one in front
  of it, and the values are found in it. -/
  built : ∀ route ∈ t.dynamics, ∀ vs : Values,
    (∀ n ∈ Pattern.names route, ∃ v, vs.get? n = some v ∧ v ≠ []) →
      ∃ path, t.build route vs = .ok path ∧
        (∃ before behind q, t.dynamics = before ++ route :: behind ∧ q ∈ before ++ [route] ∧
          t.match? path = some q) ∧
        ∃ m, t.extract route path = .ok (some m) ∧
          ∀ n, m.get? n = if n ∈ Pattern.names route then vs.get? n else none
  /-- A static route is its own path. -/
  static : ∀ route ∈ t.statics, ∀ vs, t.build route vs = .ok route
  /-- The routes are the patterns, and those with placeholders are the dynamic ones. -/
  contains : ∀ route, (t.contains route = true ↔ route ∈ patterns) ∧
    (route ∈ t.dynamics ↔ route ∈ patterns ∧ Pattern.isDynamic route = true)
  /-- A path cannot be built for want of the route exactly when the table does not contain it. -/
  unbuilt : ∀ route vs r,
    t.build route vs = .error (.unknownRoute r) ↔ r = route ∧ t.contains route = false
  /-- Values cannot be looked for for want of the route exactly when it is no dynamic route. -/
  unextracted : ∀ route path r,
    t.extract route path = .error (.unknownRoute r) ↔ r = route ∧ route ∉ t.dynamics

/-- What is built from values that are not empty is found again. -/
theorem exists_build_extract (h : route ∈ t.dynamics)
    (hvs : ∀ n ∈ Pattern.names route, ∃ v, vs.get? n = some v ∧ v ≠ []) :
    ∃ path, t.build route vs = .ok path ∧ Pattern.isMatch route path = true ∧
      ∃ m, t.extract route path = .ok (some m) ∧
        ∀ n, m.get? n = if n ∈ Pattern.names route then vs.get? n else none := by
  obtain ⟨f, hf⟩ : ∃ f : Text → Text,
      ∀ n ∈ Pattern.names route, vs.get? n = some (f n) ∧ f n ≠ [] := by
    refine ⟨fun n => (vs.get? n).getD [], fun n hn => ?_⟩
    obtain ⟨v, hv, hne⟩ := hvs n hn
    simp [hv, hne]
  have hfull : ∀ n ∈ Pattern.names route, f n ≠ [] := fun n hn => (hf n hn).2
  have hextract := (extract_of_mem h _).trans (Pattern.matchPath_filledPath hfull)
  refine ⟨Pattern.filledPath route f, ?_, ?_, _, hextract, fun n => ?_⟩
  · rw [build_of_contains (contains_iff.2 (.inr h)), Pattern.build_eq fun n hn => (hf n hn).1]
  · rw [Pattern.isMatch, Pattern.captures?_filledPath hfull]
    rfl
  · rw [Values.get?_foldl_insert]
    split_ifs with hn
    · exact (hf n hn).1.symm
    · rfl

/-- **The answers of a table agree**, whatever records it was made from. -/
theorem coherent_ofRecords (rs : List (Record M)) :
    (ofManifest (Manifest.ofRecords rs)).Coherent (rs.map Record.pattern) := by
  refine ⟨fun path route hmatch => ?_, fun path hnone route hroute => ?_,
    fun route hroute vs hvs => ?_, fun route hroute vs => ?_, fun route => ?_,
    fun route vs r => build_unknownRoute, fun route path r => extract_unknownRoute⟩
  · have hroute := List.mem_of_find?_eq_some hmatch
    rw [extract_of_mem hroute]
    exact ⟨hroute, Pattern.matchPath_of_isMatch
      (List.find?_some (p := fun p => Pattern.isMatch p path) hmatch)⟩
  · rw [extract_of_mem hroute]
    have hno := List.find?_eq_none.1 hnone route hroute
    exact Pattern.matchPath_of_not_isMatch (by simpa using hno)
  · obtain ⟨path, hbuild, hmatch, hextract⟩ := exists_build_extract hroute hvs
    exact ⟨path, hbuild, exists_match?_of_isMatch hroute hmatch, hextract⟩
  · rw [build_of_contains (contains_iff.2 (.inl hroute)),
      Pattern.build_of_static (mem_statics.1 hroute).2]
  · exact ⟨contains_ofRecords, mem_dynamics⟩

/-- In a table with two routes for `/user/%C3%A9`, what is built for the second one belongs to the
first one, and its values are found all the same. -/
theorem coherent_ofRecords_user :
    let record (p : String) : Record Unit := ⟨.ofText "page.ts".toList, p.toList, ()⟩
    let t := ofManifest (Manifest.ofRecords
      [record "/[section]/[id]", record "/user/me", record "/user/[id]", record "/user/me"])
    let vs : Values := [("id".toList, ['é'])]
    ∃ path m, t.build "/user/[id]".toList vs = .ok path ∧
      t.match? path = some "/[section]/[id]".toList ∧
      t.extract "/user/[id]".toList path = .ok (some m) ∧ m.get? "id".toList = some ['é'] ∧
      t.build "/user/me".toList vs = .ok "/user/me".toList := by
  intro record t vs
  have h := coherent_ofRecords
    [record "/[section]/[id]", record "/user/me", record "/user/[id]", record "/user/me"]
  obtain ⟨path, hbuild, -, m, hm, hvalues⟩ := h.built "/user/[id]".toList (by decide) vs (by decide)
  refine ⟨path, m, hbuild, ?_, hm, hvalues "id".toList, h.static _ (by decide) vs⟩
  have hpath : t.build "/user/[id]".toList vs = .ok "/user/%C3%A9".toList := by decide
  obtain rfl := Except.ok.inj (hbuild.symm.trans hpath)
  decide

end RouteTable

end FileRoutes
