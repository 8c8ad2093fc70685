import FileRoutes.Route.Manifest
import Mathlib.Data.List.Basic
import Mathlib.Data.List.Induction
import Mathlib.Data.List.Nodup
import Mathlib.Tactic.SplitIfs

/-!
# What a manifest holds

The first record of each pattern counts (`Record.firsts`).  A manifest holds these records, the
static and the dynamic ones apart, each in the order of the records: `Manifest.ofRecords_eq`.  So it
holds the patterns of the records, each once (`Manifest.mem_patterns_ofRecords`,
`Manifest.nodup_patterns_ofRecords`).
-/

namespace FileRoutes

variable {M : Type}

namespace Record

/-- The records whose pattern has not occurred before. -/
def firsts : List (Record M) → List (Record M)
  | [] => []
  | r :: rs => r :: (firsts rs).filter fun s => s.pattern ≠ r.pattern

theorem firsts_sublist (rs : List (Record M)) : (firsts rs).Sublist rs := by
  induction rs with
  | nil => exact .slnil
  | cons r rs ih => exact (List.filter_sublist.trans ih).cons_cons r

theorem nodup_map_pattern_firsts (rs : List (Record M)) : ((firsts rs).map pattern).Nodup := by
  induction rs with
  | nil => exact List.nodup_nil
  | cons r rs ih =>
    refine List.nodup_cons.2 ⟨fun h => ?_, ih.sublist (List.filter_sublist.map _)⟩
    obtain ⟨s, hs, heq⟩ := List.mem_map.1 h
    simp [List.mem_filter, heq] at hs

theorem mem_map_pattern_firsts {rs : List (Record M)} {p : Text} :
    p ∈ (firsts rs).map pattern ↔ p ∈ rs.map pattern := by
  induction rs with
  | nil => rfl
  | cons r rs ih =>
    by_cases hp : p = r.pattern
    · simp [firsts, hp]
    · rw [firsts, List.map_cons, List.map_cons, List.mem_cons, List.mem_cons, ← ih]
      refine or_congr_right ⟨fun h => (List.filter_sublist.map _).subset h, fun h => ?_⟩
      obtain ⟨s, hs, rfl⟩ := List.mem_map.1 h
      exact List.mem_map_of_mem (List.mem_filter.2 ⟨hs, by simpa using hp⟩)

theorem firsts_concat (rs : List (Record M)) (r : Record M) :
    firsts (rs ++ [r]) =
      if r.pattern ∈ rs.map pattern then firsts rs else firsts rs ++ [r] := by
  induction rs with
  | nil => rfl
  | cons s rs ih =>
    rw [List.cons_append, firsts, firsts, ih, List.map_cons]
    by_cases hr : r.pattern ∈ rs.map pattern
    · rw [if_pos hr, if_pos (List.mem_cons_of_mem _ hr)]
    · by_cases hs : r.pattern = s.pattern
      · -- the new record goes away again behind a record with its pattern
        rw [if_neg hr, List.filter_append]
        simp [hs]
      · rw [if_neg hr, if_neg (by simp_all)]
        simp [hs]

end Record

namespace Manifest

/-- The routes of some records, the static and the dynamic ones apart. -/
def partition (rs : List (Record M)) : Manifest M where
  statics := (rs.filter fun r => !r.isDynamic).map fun r => ⟨r.pattern, r.extra⟩
  dynamics := (rs.filter fun r => r.isDynamic).map fun r =>
    ⟨r.pattern, Pattern.matchable r.pattern, r.params, r.extra⟩

theorem contains_partition {rs : List (Record M)} {p : Text} :
    (partition rs).contains p = true ↔ p ∈ rs.map Record.pattern := by
  have hor : p ∈ rs.map Record.pattern ↔
      (∃ r ∈ rs, r.isDynamic = false ∧ r.pattern = p) ∨
        ∃ r ∈ rs, r.isDynamic = true ∧ r.pattern = p := by
    rw [List.mem_map]
    constructor
    · rintro ⟨r, hr, hp⟩
      cases hdyn : r.isDynamic with
      | false => exact .inl ⟨r, hr, hdyn, hp⟩
      | true => exact .inr ⟨r, hr, hdyn, hp⟩
    · rintro (⟨r, hr, -, hp⟩ | ⟨r, hr, -, hp⟩)
      · exact ⟨r, hr, hp⟩
      · exact ⟨r, hr, hp⟩
  rw [hor]
  simp [contains, partition, staticPatterns, dynamicPatterns, and_assoc]

theorem add_partition (rs : List (Record M)) (r : Record M) :
    (partition rs).add r =
      if r.pattern ∈ rs.map Record.pattern then partition rs else partition (rs ++ [r]) := by
  rw [add]
  by_cases hr : r.pattern ∈ rs.map Record.pattern
  · rw [if_pos hr, if_pos (contains_partition.2 hr)]
  · rw [if_neg hr, if_neg (mt contains_partition.1 hr)]
    cases hdyn : r.isDynamic with
    | false => simp [partition, List.filter_append, hdyn]
    | true => simp [partition, List.filter_append, hdyn]

/-- **A manifest holds the first record of each pattern.** -/
theorem ofRecords_eq (rs : List (Record M)) : ofRecords rs = partition (Record.firsts rs) := by
  induction rs using List.reverseRecOn with
  | nil => rfl
  | append_singleton rs r ih =>
    -- a manifest grows at its end, as the list of first records does
    rw [ofRecords, List.foldl_append, ← ofRecords, ih, List.foldl_cons, List.foldl_nil,
      add_partition, Record.firsts_concat]
    simp only [Record.mem_map_pattern_firsts]
    split_ifs <;> rfl

/-- All patterns, those of the static routes first. -/
def patterns (m : Manifest M) : List Text := m.staticPatterns ++ m.dynamicPatterns

theorem length_patterns (m : Manifest M) : m.patterns.length = m.size := by
  simp [patterns, size, staticPatterns, dynamicPatterns]

theorem patterns_ofRecords_perm (rs : List (Record M)) :
    (ofRecords rs).patterns.Perm ((Record.firsts rs).map Record.pattern) := by
  have hperm := List.filter_append_perm (fun r : Record M => !r.isDynamic) (Record.firsts rs)
  have hpatterns : (ofRecords rs).patterns =
      ((Record.firsts rs).filter (fun r => !r.isDynamic) ++
        (Record.firsts rs).filter fun r => !!r.isDynamic).map Record.pattern := by
    simp [ofRecords_eq, patterns, partition, staticPatterns, dynamicPatterns, Function.comp_def]
  rw [hpatterns]
  exact hperm.map _

theorem mem_patterns_ofRecords {rs : List (Record M)} {p : Text} :
    p ∈ (ofRecords rs).patterns ↔ p ∈ rs.map Record.pattern := by
  rw [(patterns_ofRecords_perm rs).mem_iff, Record.mem_map_pattern_firsts]

/-- A manifest contains exactly the patterns of the records. -/
theorem contains_ofRecords {rs : List (Record M)} {p : Text} :
    (ofRecords rs).contains p = true ↔ p ∈ rs.map Record.pattern := by
  rw [← mem_patterns_ofRecords]
  simp [contains, patterns]

theorem nodup_patterns_ofRecords (rs : List (Record M)) : (ofRecords rs).patterns.Nodup :=
  (patterns_ofRecords_perm rs).nodup_iff.2 (Record.nodup_map_pattern_firsts rs)

/-- Without payloads, patterns alone make a manifest. -/
theorem partition_eq_of_patterns {rs rs' : List (Record Unit)}
    (h : rs.map Record.pattern = rs'.map Record.pattern) : partition rs = partition rs' := by
  induction rs generalizing rs' with
  | nil =>
    obtain rfl := List.map_eq_nil_iff.1 h.symm
    rfl
  | cons r rs ih =>
    obtain ⟨r', rs', rfl, hr, h⟩ := List.map_eq_cons_iff.1 h.symm
    have hrs := ih h.symm
    simp only [partition, Manifest.mk.injEq] at hrs ⊢
    have hdyn : r'.isDynamic = r.isDynamic := by rw [Record.isDynamic, hr, Record.isDynamic]
    have hparams : r'.params = r.params := by rw [Record.params, hr, Record.params]
    cases hd : r.isDynamic with
    | false => simp [hd, hdyn, hrs.1, hrs.2, hr]
    | true => simp [hd, hdyn, hrs.1, hrs.2, hr, hparams]

end Manifest

end FileRoutes
