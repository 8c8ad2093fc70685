import FileRoutes.Generator
import FileRoutes.Proofs.Artifact.Faithful
import FileRoutes.Proofs.Route.Enumeration
import FileRoutes.Proofs.Route.Partition

/-!
# Payloads decide about the order and about nothing else

A payload is attached to each record before the records are sorted.  Whatever payloads there are,
the manifest of the records is the one without payloads when its own are taken away
(`Manifest.bare_ofRecords`), and the artifacts are read off that one
(`Artifacts.ofManifest_eq_of_bare`).  So a generator with payloads and an order renders what the
generator without payloads renders whose order looks the payloads up:
`Generator.render_withPayload`.  Each route carries the payload of the first record of its pattern
in that order (`Manifest.Carries`).
-/

namespace FileRoutes

variable {M N : Type}

/-! ### Manifests without their payloads -/

namespace Manifest

open Record (first?)

/-- The manifest without payloads. -/
def bare (m : Manifest M) : Manifest Unit where
  statics := m.statics.map fun s => ⟨s.pattern, ()⟩
  dynamics := m.dynamics.map fun s => ⟨s.pattern, s.matchable, s.params, ()⟩

/-- The manifest is a given one but for its payloads, and each of its routes carries the payload of
the first record of its pattern. -/
structure Carries (m : Manifest M) (plain : Manifest Unit) (payload : Record N → M)
    (rs : List (Record N)) : Prop where
  bare_eq : m.bare = plain
  statics : ∀ s ∈ m.statics, ∃ r, first? rs s.pattern = some r ∧ s.extra = payload r
  dynamics : ∀ s ∈ m.dynamics, ∃ r, first? rs s.pattern = some r ∧ s.extra = payload r

@[simp]
theorem staticPatterns_bare (m : Manifest M) : m.bare.staticPatterns = m.staticPatterns := by
  simp [bare, staticPatterns, Function.comp_def]

@[simp]
theorem dynamicPatterns_bare (m : Manifest M) : m.bare.dynamicPatterns = m.dynamicPatterns := by
  simp [bare, dynamicPatterns, Function.comp_def]

theorem bare_eq_self (m : Manifest Unit) : m.bare = m := by
  have hstatics : m.statics.map (fun s => ⟨s.pattern, ()⟩) = m.statics := List.map_id m.statics
  have hdynamics : m.dynamics.map (fun s => ⟨s.pattern, s.matchable, s.params, ()⟩) = m.dynamics :=
    List.map_id m.dynamics
  rw [bare, hstatics, hdynamics]

/-- A route is added alike with its payload and without it. -/
theorem bare_add (m : Manifest M) (r : Record M) : (m.add r).bare = m.bare.add (r.withExtra ()) := by
  have hcontains : m.bare.contains r.pattern = m.contains r.pattern := by simp [contains]
  unfold add
  rw [Record.pattern_withExtra, Record.isDynamic_withExtra, hcontains]
  by_cases h : m.contains r.pattern = true
  · rw [if_pos h, if_pos h]
  · rw [if_neg h, if_neg h]
    cases r.isDynamic <;> simp [bare]

/-- **Without its payloads a manifest is the one of the records without theirs.** -/
theorem bare_ofRecords (rs : List (Record M)) :
    (ofRecords rs).bare = ofRecords (rs.map fun r => r.withExtra ()) := by
  have hrun (m : Manifest M) :
      (rs.foldl add m).bare = (rs.map fun r => r.withExtra ()).foldl add m.bare := by
    induction rs generalizing m with
    | nil => rfl
    | cons r rs ih => rw [List.foldl_cons, ih, bare_add, List.map_cons, List.foldl_cons]
  exact hrun empty

/-- The first record of a pattern is the one that was so before the payloads were attached. -/
theorem exists_first?_of_map {payload : Record N → M} {rs : List (Record N)} {p : Text}
    {r' : Record M} (h : first? (rs.map fun r => r.withExtra (payload r)) p = some r') :
    ∃ r, first? rs p = some r ∧ r.withExtra (payload r) = r' := by
  unfold Record.first? at h
  rw [List.find?_map] at h
  exact Option.map_eq_some_iff.1 h

/-- With payloads attached, the manifest of the records carries them. -/
theorem carries_ofRecords (payload : Record Unit → M) (rs : List (Record Unit)) :
    (ofRecords (rs.map fun r => r.withExtra (payload r))).Carries (ofRecords rs) payload rs := by
  have hpartition := partitions_ofRecords (rs.map fun r => r.withExtra (payload r))
  refine ⟨?_, ?_, ?_⟩
  · rw [bare_ofRecords, List.map_map]
    exact congrArg ofRecords (List.map_id rs)
  · intro s hs
    obtain ⟨r', hfirst, -, rfl⟩ := (hpartition.statics s).1 hs
    obtain ⟨r, hr, rfl⟩ := exists_first?_of_map hfirst
    exact ⟨r, hr, rfl⟩
  · intro s hs
    obtain ⟨r', hfirst, -, rfl⟩ := (hpartition.dynamics s).1 hs
    obtain ⟨r, hr, rfl⟩ := exists_first?_of_map hfirst
    exact ⟨r, hr, rfl⟩

end Manifest

/-- Manifests that differ in their payloads only have the same artifacts. -/
theorem Artifacts.ofManifest_eq_of_bare {rs : List (Record M)} {rs' : List (Record N)}
    (h : (Manifest.ofRecords rs).bare = (Manifest.ofRecords rs').bare) :
    ofManifest (Manifest.ofRecords rs) = ofManifest (Manifest.ofRecords rs') := by
  have hstatics := congrArg Manifest.staticPatterns h
  have hdynamics := congrArg Manifest.dynamicPatterns h
  rw [Manifest.staticPatterns_bare, Manifest.staticPatterns_bare] at hstatics
  rw [Manifest.dynamicPatterns_bare, Manifest.dynamicPatterns_bare] at hdynamics
  unfold ofManifest
  rw [Manifest.types_ofRecords rs, Manifest.types_ofRecords rs', Manifest.routes_ofRecords rs,
    Manifest.routes_ofRecords rs', hstatics, hdynamics]

/-! ### Generators with payloads -/

namespace Generator

section Stages

variable {g : Generator M} {d : Disk}

theorem render_of_error {e : Error} (h : d.scan g.root g.exclude = .error e) :
    g.render d = .error e := by
  rw [render, records, h]

theorem records_of_scan {rs : List (Record Unit)} (h : d.scan g.root g.exclude = .ok rs) :
    g.records d = .ok (g.arrange rs) := by
  rw [records, h]

theorem render_of_records {rs : List (Record M)} (h : g.records d = .ok rs) :
    g.render d = .ok (Manifest.ofRecords rs, .ofManifest (Manifest.ofRecords rs)) := by
  rw [render, h]

end Stages

variable (g : Generator N) (payload : Record Unit → M) (cmp : Record M → Record M → Ordering)

/-- The order of records without payloads in which each record has its payload all the same. -/
def lookingUp : Record Unit → Record Unit → Ordering :=
  fun a b => cmp (a.withExtra (payload a)) (b.withExtra (payload b))

theorem arrange_withPayload (rs : List (Record Unit)) :
    ((g.withPayload payload).withOrder cmp).arrange rs =
      (Record.sortBy (lookingUp payload cmp) rs).map fun r => r.withExtra (payload r) :=
  (Record.map_sortBy (fun r => r.withExtra (payload r)) rs).symm

theorem arrange_lookingUp (rs : List (Record Unit)) :
    ((g.withPayload fun _ => ()).withOrder (lookingUp payload cmp)).arrange rs =
      Record.sortBy (lookingUp payload cmp) rs :=
  congrArg (Record.sortBy _) (List.map_id rs)

variable {cmp}

theorem transCmp_lookingUp (h : Std.TransCmp cmp) : Std.TransCmp (lookingUp payload cmp) where
  eq_swap := h.eq_swap
  isLE_trans := h.isLE_trans

/-- **Payloads pass through untouched, and artifacts know of them only what the order does with
them.**  A generator with payloads and an order fails as the one does that looks the payloads up
while it sorts, and otherwise renders the same artifacts.  The records are those of the scan, stably
sorted; the manifest is the plain one, and each route carries the payload of the first record of its
pattern. -/
theorem render_withPayload (hcmp : Std.TransCmp cmp) (d : Disk) :
    let paid := (g.withPayload payload).withOrder cmp
    let plain := (g.withPayload fun _ => ()).withOrder (lookingUp payload cmp)
    (∃ e, d.scan g.root g.exclude = .error e ∧ paid.render d = .error e ∧
      plain.render d = .error e) ∨
    ∃ rs sorted m m' a, d.scan g.root g.exclude = .ok rs ∧
      Record.StablySorted (lookingUp payload cmp) rs sorted ∧
      plain.records d = .ok sorted ∧
      paid.records d = .ok (sorted.map fun r => r.withExtra (payload r)) ∧
      plain.render d = .ok (m, a) ∧ paid.render d = .ok (m', a) ∧
      m'.Carries m payload sorted := by
  intro paid plain
  cases hscan : d.scan g.root g.exclude with
  | error e =>
    exact .inl ⟨e, rfl, render_of_error hscan, render_of_error hscan⟩
  | ok rs =>
    have := transCmp_lookingUp payload hcmp
    have hplain := records_of_scan (g := plain) hscan
    have hpaid := records_of_scan (g := paid) hscan
    rw [arrange_lookingUp] at hplain
    rw [arrange_withPayload] at hpaid
    have hcarries := Manifest.carries_ofRecords payload
      (Record.sortBy (lookingUp payload cmp) rs)
    have hartifacts := Artifacts.ofManifest_eq_of_bare
      (hcarries.bare_eq.trans (Manifest.bare_eq_self _).symm)
    refine .inr ⟨rs, _, _, _, _, rfl, Record.stablySorted_sortBy rs, hplain, hpaid,
      render_of_records hplain, ?_, hcarries⟩
    rw [render_of_records hpaid, hartifacts]

/-- With the length of its path as the payload of a page, and the longest first, of two pages of one
directory the second one gives the payload. -/
theorem render_withPayload_threePages :
    let g : Generator Unit :=
      ⟨.ofText "/".toList, .ofText "/gen".toList, fun _ => false, fun _ => (), none⟩
    let length (r : Record Unit) : Nat := r.source.raw.length
    let longest (a b : Record Nat) : Ordering := compareOn Record.extra b a
    let ts : Record Unit := ⟨.ofText "/[id]/page.ts".toList, "/[id]".toList, ()⟩
    let tsx : Record Unit := ⟨.ofText "/[id]/page.tsx".toList, "/[id]".toList, ()⟩
    let js : Record Unit := ⟨.ofText "/a/page.js".toList, "/a".toList, ()⟩
    Std.TransCmp longest ∧ ∃ m m' a,
      ((g.withPayload fun _ => ()).withOrder (lookingUp length longest)).render Disk.threePages =
        .ok (m, a) ∧
      ((g.withPayload length).withOrder longest).render Disk.threePages = .ok (m', a) ∧
      m'.Carries m length [tsx, ts, js] := by
  intro g length longest ts tsx js
  have hcmp : Std.TransCmp longest := Std.TransCmp.opposite
  have hscan : Disk.threePages.scan g.root g.exclude = .ok [ts, tsx, js] := rfl
  -- sorting three records compares them in pairs
  have hsort : Record.sortBy (lookingUp length longest) [ts, tsx, js] = [tsx, ts, js] := by
    have h₁ : lookingUp length longest ts tsx = .gt := by decide
    have h₂ : lookingUp length longest ts js = .lt := by decide
    have h₃ : lookingUp length longest tsx js = .lt := by decide
    simp [Record.sortBy, List.mergeSort, List.MergeSort.Internal.splitInTwo, Ordering.isLE,
      h₁, h₂, h₃]
  refine ⟨hcmp, ?_⟩
  rcases render_withPayload g length hcmp Disk.threePages with
    ⟨e, he, -⟩ | ⟨rs, sorted, m, m', a, -, -, hsorted, -, hplain, hpaid, hcarries⟩
  · rw [hscan] at he
    cases he
  · have horder := records_of_scan
      (g := (g.withPayload fun _ => ()).withOrder (lookingUp length longest)) hscan
    rw [arrange_lookingUp, hsort] at horder
    obtain rfl := Except.ok.inj (horder.symm.trans hsorted)
    exact ⟨m, m', a, hplain, hpaid, hcarries⟩

end Generator

end FileRoutes
