import FileRoutes.Proofs.Pattern.Segments
import FileRoutes.Proofs.Route.Manifest
import Mathlib.Data.Finset.Card
import Mathlib.Data.List.Sort

/-!
# A manifest is the partition of its records by first occurrence

What a manifest holds is said here without the way it is built: a route is static or dynamic as its
pattern has placeholders, it stands where its pattern first occurs, and it carries the payload of
the record there (`Manifest.Partitions`).  Only one manifest is such a partition of given records,
the one that is built from them: `Manifest.first_occurrence_partition`.
-/

namespace FileRoutes

variable {M : Type}

namespace Record

/-- The first record with a pattern. -/
def first? (rs : List (Record M)) (p : Text) : Option (Record M) :=
  rs.find? fun r => r.pattern = p

/-- The number of records in front of the first one with a pattern. -/
def place (rs : List (Record M)) (p : Text) : Nat := (rs.map pattern).idxOf p

variable {r s : Record M} {rs : List (Record M)} {p : Text}

theorem first?_cons : first? (s :: rs) p = if s.pattern = p then some s else first? rs p := by
  unfold first?
  rw [List.find?_cons]
  by_cases h : s.pattern = p <;> simp [h]

theorem place_cons : place (s :: rs) p = if s.pattern = p then 0 else place rs p + 1 := by
  unfold place
  rw [List.map_cons, List.idxOf_cons]
  by_cases h : s.pattern = p
  · simp [h]
  · rw [if_neg h, beq_eq_false_iff_ne.2 h, cond_false]

/-- The first records are those that are the first ones with their patterns. -/
theorem mem_firsts : r ∈ firsts rs ↔ first? rs r.pattern = some r := by
  induction rs with
  | nil => simp [firsts, first?]
  | cons s rs ih =>
    rw [firsts, List.mem_cons, List.mem_filter, ih, first?_cons]
    by_cases h : s.pattern = r.pattern
    · simp [h, eq_comm]
    · have hne : r ≠ s := by
        rintro rfl
        exact h rfl
      simp [h, Ne.symm h, hne]

/-- The first records stand in the order in which their patterns first occur. -/
theorem pairwise_place_firsts (rs : List (Record M)) :
    (firsts rs).Pairwise fun a b => place rs a.pattern < place rs b.pattern := by
  induction rs with
  | nil => exact .nil
  | cons s rs ih =>
    have hother {r : Record M} (hr : r ∈ (firsts rs).filter fun r => r.pattern ≠ s.pattern) :
        s.pattern ≠ r.pattern := by
      have hne := (List.mem_filter.1 hr).2
      exact Ne.symm (by simpa using hne)
    refine List.pairwise_cons.2 ⟨?_, ?_⟩
    · intro b hb
      rw [place_cons, if_pos rfl, place_cons, if_neg (hother hb)]
      exact Nat.succ_pos _
    · -- behind the new record, all places are one further
      refine (ih.filter _).imp_of_mem ?_
      intro a b ha hb hab
      rw [place_cons, if_neg (hother ha), place_cons, if_neg (hother hb)]
      exact Nat.succ_lt_succ hab

end Record

namespace Manifest

open Record (first? place)

/-- The manifest is made of the first record of each pattern, and both kinds of routes stand in the
order in which their patterns first occur. -/
structure Partitions (m : Manifest M) (rs : List (Record M)) : Prop where
  /-- The static routes are the first records of the patterns without placeholders. -/
  statics : ∀ s, s ∈ m.statics ↔ ∃ r, first? rs s.pattern = some r ∧
    Pattern.names r.pattern = [] ∧ s = ⟨r.pattern, r.extra⟩
  /-- The dynamic routes are those of the other patterns. -/
  dynamics : ∀ s, s ∈ m.dynamics ↔ ∃ r, first? rs s.pattern = some r ∧
    Pattern.names r.pattern ≠ [] ∧
      s = ⟨r.pattern, Pattern.matchable r.pattern, Pattern.names r.pattern, r.extra⟩
  staticOrder : m.statics.Pairwise fun s s' => place rs s.pattern < place rs s'.pattern
  dynamicOrder : m.dynamics.Pairwise fun s s' => place rs s.pattern < place rs s'.pattern

variable {m m' : Manifest M} {rs rs' : List (Record M)} {p : Text}

/-- What is built from records is their partition. -/
theorem partitions_ofRecords (rs : List (Record M)) : (ofRecords rs).Partitions rs := by
  rw [ofRecords_eq]
  refine ⟨?_, ?_, ?_, ?_⟩
  · intro s
    simp only [partition, List.mem_map, List.mem_filter, Record.mem_firsts, Record.isDynamic,
      Bool.not_eq_true', Pattern.isDynamic_eq_false_iff]
    constructor
    · rintro ⟨r, ⟨hr, hnames⟩, rfl⟩
      exact ⟨r, hr, hnames, rfl⟩
    · rintro ⟨r, hr, hnames, rfl⟩
      exact ⟨r, ⟨hr, hnames⟩, rfl⟩
  · intro s
    simp only [partition, List.mem_map, List.mem_filter, Record.mem_firsts, Record.isDynamic,
      Pattern.isDynamic_iff]
    constructor
    · rintro ⟨r, ⟨hr, hnames⟩, rfl⟩
      exact ⟨r, hr, hnames, rfl⟩
    · rintro ⟨r, hr, hnames, rfl⟩
      exact ⟨r, ⟨hr, hnames⟩, rfl⟩
  · exact List.pairwise_map.2 ((Record.pairwise_place_firsts rs).filter _)
  · exact List.pairwise_map.2 ((Record.pairwise_place_firsts rs).filter _)

/-- Lists with the same members are equal when both are in the order of some places. -/
theorem eq_of_pairwise_place {α : Type} {f : α → Nat} {l l' : List α}
    (hl : l.Pairwise fun a b => f a < f b) (hl' : l'.Pairwise fun a b => f a < f b)
    (hmem : ∀ a, a ∈ l ↔ a ∈ l') : l = l' := by
  have : Std.Irrefl fun a b : α => f a < f b := ⟨fun a => Nat.lt_irrefl (f a)⟩
  have : Std.Antisymm fun a b : α => f a < f b := ⟨fun a b h h' => absurd h' (Nat.lt_asymm h)⟩
  exact hl.eq_of_mem_iff hl' hmem

/-- Records have one partition only. -/
theorem Partitions.unique (h : m.Partitions rs) (h' : m'.Partitions rs) : m = m' := by
  have hstatics : m.statics = m'.statics :=
    eq_of_pairwise_place h.staticOrder h'.staticOrder fun s =>
      (h.statics s).trans (h'.statics s).symm
  have hdynamics : m.dynamics = m'.dynamics :=
    eq_of_pairwise_place h.dynamicOrder h'.dynamicOrder fun s =>
      (h.dynamics s).trans (h'.dynamics s).symm
  cases m
  cases m'
  rw [Manifest.mk.injEq]
  exact ⟨hstatics, hdynamics⟩

theorem size_ofRecords (rs : List (Record M)) :
    (ofRecords rs).size = (rs.map Record.pattern).toFinset.card := by
  have hsame : (ofRecords rs).patterns.toFinset = (rs.map Record.pattern).toFinset := by
    ext p
    rw [List.mem_toFinset, List.mem_toFinset, mem_patterns_ofRecords]
  rw [← length_patterns, ← List.toFinset_card_of_nodup (nodup_patterns_ofRecords rs), hsame]

/-- Records whose patterns are there already add nothing. -/
theorem foldl_add_of_contained {rs : List (Record M)}
    (h : ∀ r ∈ rs, m.contains r.pattern = true) : rs.foldl add m = m := by
  induction rs with
  | nil => rfl
  | cons r rs ih =>
    rw [List.foldl_cons, add, if_pos (h r List.mem_cons_self)]
    exact ih fun s hs => h s (List.mem_cons_of_mem r hs)

/-- **A manifest is the partition of its records by first occurrence**, and no other manifest is.
It has each pattern of the records once and no other one, so its size is the number of different
patterns, and records whose patterns have occurred change nothing. -/
theorem first_occurrence_partition (rs : List (Record M)) :
    (∀ m : Manifest M, m.Partitions rs ↔ m = ofRecords rs) ∧
    (∀ p ∈ rs.map Record.pattern, (ofRecords rs).patterns.count p = 1) ∧
    (∀ p, (ofRecords rs).contains p = true ↔ p ∈ rs.map Record.pattern) ∧
    (ofRecords rs).size = (rs.map Record.pattern).toFinset.card ∧
    ∀ rs' : List (Record M), (∀ r ∈ rs', r.pattern ∈ rs.map Record.pattern) →
      ofRecords (rs ++ rs') = ofRecords rs := by
  refine ⟨fun m => ⟨?_, ?_⟩, ?_, fun p => contains_ofRecords, size_ofRecords rs, ?_⟩
  · intro h
    exact h.unique (partitions_ofRecords rs)
  · rintro rfl
    exact partitions_ofRecords rs
  · intro p hp
    exact List.count_eq_one_of_mem (nodup_patterns_ofRecords rs) (mem_patterns_ofRecords.2 hp)
  · intro rs' hrs'
    rw [ofRecords, List.foldl_append]
    exact foldl_add_of_contained fun r hr => contains_ofRecords.2 (hrs' r hr)

/-- Two pages of one directory count once, with the payload of the first one, and a third one
that comes later changes nothing. -/
theorem first_occurrence_partition_twoPages :
    let record (source p extra : String) : Record String := ⟨.ofText source.toList, p.toList, extra⟩
    let rs := [record "u/page.ts" "/u/[id]" "first", record "page.ts" "/" "root",
      record "u/page.tsx" "/u/[id]" "second"]
    (∃ m : Manifest String, m.Partitions rs ∧
      m.dynamics = [⟨"/u/[id]".toList, "^/u/([^/]+)$".toList, ["id".toList], "first"⟩]) ∧
    (ofRecords rs).patterns.count "/u/[id]".toList = 1 ∧
    ofRecords (rs ++ [record "page.js" "/" "third"]) = ofRecords rs := by
  intro record rs
  obtain ⟨hpartition, hcount, -, -, happend⟩ := first_occurrence_partition rs
  exact ⟨⟨ofRecords rs, (hpartition _).2 rfl, by decide⟩, hcount _ (by decide),
    happend _ (by decide)⟩

end Manifest

end FileRoutes
