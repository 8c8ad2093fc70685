import FileRoutes.Proofs.Route.Precedence

/-!
# Shadowed routes

The first dynamic route that matches a path takes it, so a route can be shadowed by the routes in
front of it.  No single path has to be given to several of them: a dynamic route is the match of
some path exactly when no route in front of it generalises it (`RouteTable.exists_match?_iff`).

In one direction, a route in front that generalises it takes all its paths.  In the other one,
`Pattern.exists_isMatch_only` gives a path that all other routes in front leave alone.
-/

namespace FileRoutes

open Pattern (Generalises)

variable {M : Type}

theorem Manifest.nodup_dynamicPatterns (rs : List (Record M)) :
    (ofRecords rs).dynamicPatterns.Nodup := by
  rw [dynamicPatterns_ofRecords]
  exact (Record.nodup_map_pattern_firsts rs).sublist (List.filter_sublist.map _)

namespace RouteTable

variable {t : RouteTable} {before behind : List Text} {p q path : Text}

/-- A route takes a path when it matches it and no route in front of it does. -/
theorem match?_eq_some_iff (h : t.dynamics = before ++ p :: behind) (hnodup : t.dynamics.Nodup) :
    t.match? path = some p ↔
      Pattern.isMatch p path = true ∧ ∀ q ∈ before, Pattern.isMatch q path = false := by
  constructor
  · intro hmatch
    refine ⟨List.find?_some (p := fun q => Pattern.isMatch q path) hmatch, fun q hq => ?_⟩
    by_contra hne
    -- then the match is a route in front of `p`, and `p` is none of them
    obtain ⟨r, hr⟩ := Option.isSome_iff_exists.1
      (List.find?_isSome (p := fun q => Pattern.isMatch q path).2 ⟨q, hq, by simpa using hne⟩)
    rw [match?, h, List.find?_append, hr, Option.some_or] at hmatch
    rw [h, List.nodup_append] at hnodup
    exact hnodup.2.2 r (List.mem_of_find?_eq_some hr) p List.mem_cons_self
      (Option.some.inj hmatch)
  · rintro ⟨hp, hbefore⟩
    exact List.find?_eq_some_iff_append.2
      ⟨hp, before, behind, h, fun q hq => by simp [hbefore q hq]⟩

/-- **A dynamic route takes some path exactly when no route in front of it generalises it.** -/
theorem exists_match?_iff (rs : List (Record M))
    (h : (ofManifest (Manifest.ofRecords rs)).dynamics = before ++ p :: behind) :
    (∃ path, (ofManifest (Manifest.ofRecords rs)).match? path = some p) ↔
      ∀ q ∈ before, ¬Generalises q p := by
  have hnodup : (ofManifest (Manifest.ofRecords rs)).dynamics.Nodup :=
    Manifest.nodup_dynamicPatterns rs
  simp only [match?_eq_some_iff h hnodup]
  constructor
  · rintro ⟨path, hp, hbefore⟩ q hq hgen
    cases (hbefore q hq).symm.trans (Pattern.generalises_iff.1 hgen path hp)
  · intro hnone
    obtain ⟨path, hp, honly⟩ := Pattern.exists_isMatch_only p before
    refine ⟨path, hp, fun q hq => ?_⟩
    rw [← Bool.not_eq_true]
    exact fun hmatch => hnone q hq (honly q hq hmatch)

/-- Two routes that overlap with `/[section]/[id]` in different ways leave a path to it, and
`/user/[id]` leaves none to `/user/[name]`. -/
theorem exists_match?_overlapping :
    let record (p : String) : Record Unit := ⟨.ofText "page.ts".toList, p.toList, ()⟩
    let t := ofManifest (Manifest.ofRecords [record "/[section]/edit", record "/user/me",
      record "/user/[id]", record "/[section]/[id]", record "/user/[name]"])
    (∃ path, t.match? path = some "/[section]/[id]".toList) ∧
      ¬∃ path, t.match? path = some "/user/[name]".toList := by
  intro record t
  let rs := [record "/[section]/edit", record "/user/me", record "/user/[id]",
    record "/[section]/[id]", record "/user/[name]"]
  have hopen : t.dynamics = ["/[section]/edit".toList, "/user/[id]".toList] ++
      "/[section]/[id]".toList :: ["/user/[name]".toList] := by decide
  have hshadowed : t.dynamics =
      ["/[section]/edit".toList, "/user/[id]".toList, "/[section]/[id]".toList] ++
        "/user/[name]".toList :: [] := by decide
  refine ⟨(exists_match?_iff rs hopen).2 (by decide), fun h => ?_⟩
  exact (exists_match?_iff rs hshadowed).1 h "/user/[id]".toList (by decide) (by decide)

end RouteTable

end FileRoutes
