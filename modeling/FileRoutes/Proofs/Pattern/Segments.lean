import FileRoutes.Pattern.Segment
import Mathlib.Data.Set.Function
import Mathlib.Tactic.Push
import Mathlib.Tactic.SplitIfs

/-!
# Segments and their texts

A piece of a pattern is the text of the segment that is read from it (`Segment.text_ofText`): a
placeholder if it is a proper name in brackets (`Segment.ofText_eq_placeholder`) and a literal if
not (`Segment.ofText_eq_literal`).  The segments that are read back from their own text are the
well-formed ones (`Segment.wellFormed_iff`).

So a pattern is written as it was read (`Pattern.ofSegments_segments`), and well-formed segments are
read as they were written (`Pattern.segments_ofSegments`): patterns and lists of well-formed
segments are the same thing in two forms (`Pattern.segments_one_to_one`).

The names of a pattern are those of its placeholders (`Pattern.mem_names`), and it is dynamic when
it has names (`Pattern.isDynamic_iff`).
-/

namespace FileRoutes

namespace Segment

variable {t name : Text}

theorem bracketed?_eq_some : bracketed? t = some name ↔ t = '[' :: (name ++ [']']) := by
  constructor
  · intro h
    unfold bracketed? at h
    split at h
    · split_ifs at h with hlast
      obtain ⟨r, rfl⟩ := List.getLast?_eq_some_iff.1 hlast
      obtain rfl : r = name := by simpa using h
      rfl
    · cases h
  · rintro rfl
    simp [bracketed?]

/-- **What is read from a piece is written as that piece.** -/
@[simp]
theorem text_ofText (t : Text) : (ofText t).text = t := by
  unfold ofText
  split
  · rename_i name hname
    split_ifs
    · exact (bracketed?_eq_some.1 hname).symm
    · rfl
  · rfl

/-- A literal is the piece it was read from. -/
theorem eq_of_ofText_literal {u : Text} (h : ofText t = .literal u) : t = u := by
  rw [← text_ofText t, h, text]

theorem isName_iff : isName name = true ↔ ProperName name := by
  simp only [isName, ProperName, Bool.and_eq_true, Bool.not_eq_true', List.isEmpty_eq_false_iff,
    List.all_eq_true, bne_iff_ne, imp_and, forall_and, List.forall_mem_ne', ne_eq]

/-- **A piece is a placeholder when it is a proper name in brackets.** -/
theorem ofText_eq_placeholder :
    ofText t = .placeholder name ↔ ProperName name ∧ t = '[' :: (name ++ [']']) := by
  constructor
  · intro h
    unfold ofText at h
    split at h
    · rename_i inner hinner
      split_ifs at h with hname
      obtain rfl := Segment.placeholder.inj h
      exact ⟨isName_iff.1 hname, bracketed?_eq_some.1 hinner⟩
    · cases h
  · rintro ⟨hname, ht⟩
    rw [ofText, bracketed?_eq_some.2 ht]
    exact if_pos (isName_iff.2 hname)

/-- **A piece is a literal when it is no proper name in brackets**, and then it is that text. -/
theorem ofText_eq_literal {u : Text} :
    ofText t = .literal u ↔ t = u ∧ ∀ name, ProperName name → t ≠ '[' :: (name ++ [']']) := by
  constructor
  · intro h
    refine ⟨eq_of_ofText_literal h, fun name hname ht => ?_⟩
    cases h.symm.trans (ofText_eq_placeholder.2 ⟨hname, ht⟩)
  · rintro ⟨rfl, hno⟩
    cases hread : ofText t with
    | literal u => rw [eq_of_ofText_literal hread]
    | placeholder name =>
      obtain ⟨hname, ht⟩ := ofText_eq_placeholder.1 hread
      exact absurd ht (hno name hname)

/-- A piece without a bracket is a literal. -/
theorem ofText_of_notMem (h : '[' ∉ t) : ofText t = .literal t := by
  refine ofText_eq_literal.2 ⟨rfl, ?_⟩
  rintro name - rfl
  exact h List.mem_cons_self

/-- **A segment is well-formed when its text is one piece and is read as that segment.** -/
theorem wellFormed_iff {g : Segment} : g.WellFormed ↔ ofText g.text = g ∧ '/' ∉ g.text := by
  cases g with
  | placeholder name => simp [WellFormed, text, ofText_eq_placeholder]
  | literal t => simp [WellFormed, text, ofText_eq_literal, and_comm]

instance (g : Segment) : Decidable g.WellFormed := decidable_of_iff _ wellFormed_iff.symm

end Segment

namespace Pattern

variable {p : Text} {ss : List Segment}

/-! ### Reading and writing -/

theorem segments_ne_nil (p : Text) : segments p ≠ [] := by
  simpa [segments] using splitOn_ne_nil '/' p

theorem wellFormed_of_mem_segments {g : Segment} (h : g ∈ segments p) : g.WellFormed := by
  obtain ⟨piece, hmem, rfl⟩ := List.mem_map.1 h
  rw [Segment.wellFormed_iff, Segment.text_ofText]
  exact ⟨rfl, notMem_of_mem_splitOn hmem⟩

/-- A literal segment of a pattern holds no separator. -/
theorem slash_notMem_of_literal {t : Text} (h : .literal t ∈ segments p) : '/' ∉ t :=
  (wellFormed_of_mem_segments h).1

/-- **A pattern is written as it was read.** -/
theorem ofSegments_segments (p : Text) : ofSegments (segments p) = p := by
  have hpieces : (segments p).map Segment.text = splitOn '/' p := by
    simp [segments, Function.comp_def]
  rw [ofSegments, hpieces, joinWith_splitOn]

/-- **Well-formed segments are read as they were written.** -/
theorem segments_ofSegments (hne : ss ≠ []) (h : ∀ g ∈ ss, g.WellFormed) :
    segments (ofSegments ss) = ss := by
  have hpieces : splitOn '/' (ofSegments ss) = ss.map Segment.text := by
    refine splitOn_joinWith (by simpa using hne) fun t ht => ?_
    obtain ⟨g, hg, rfl⟩ := List.mem_map.1 ht
    exact (Segment.wellFormed_iff.1 (h g hg)).2
  have hread : ∀ g ∈ ss, Segment.ofText g.text = g := fun g hg =>
    (Segment.wellFormed_iff.1 (h g hg)).1
  calc segments (ofSegments ss)
      = (ss.map Segment.text).map Segment.ofText := by rw [segments, hpieces]
    _ = ss.map fun g => Segment.ofText g.text := List.map_map
    _ = ss.map id := List.map_congr_left hread
    _ = ss := List.map_id ss

/-- **Patterns and lists of well-formed segments correspond one to one.**  Every pattern is written
as it was read; a list of segments is read as it was written exactly when it has a segment and all
its segments are well-formed; and these lists are the segments of one pattern each. -/
theorem segments_one_to_one :
    (∀ p, ofSegments (segments p) = p) ∧
    (∀ ss, segments (ofSegments ss) = ss ↔ ss ≠ [] ∧ ∀ g ∈ ss, g.WellFormed) ∧
    Set.BijOn segments Set.univ {ss | ss ≠ [] ∧ ∀ g ∈ ss, g.WellFormed} := by
  have hreading (p : Text) : segments p ≠ [] ∧ ∀ g ∈ segments p, g.WellFormed :=
    ⟨segments_ne_nil p, fun g => wellFormed_of_mem_segments⟩
  have hinverse : Set.InvOn ofSegments segments Set.univ
      {ss | ss ≠ [] ∧ ∀ g ∈ ss, g.WellFormed} :=
    ⟨fun p _ => ofSegments_segments p, fun ss h => segments_ofSegments h.1 h.2⟩
  refine ⟨ofSegments_segments, fun ss => ⟨fun h => ?_, fun h => segments_ofSegments h.1 h.2⟩,
    hinverse.bijOn (fun p _ => hreading p) (Set.mapsTo_univ ofSegments _)⟩
  -- what is read back are the segments of a pattern
  rw [← h]
  exact hreading _

/-- Empty segments stay, and brackets around no proper name are literal; a literal that is a proper
name in brackets is read as something else. -/
theorem segments_one_to_one_brackets :
    let ss : List Segment := [.literal [], .literal "[]".toList, .literal "[id".toList,
      .literal "[[id]]".toList, .literal "[id]x".toList, .literal "v[id]".toList, .literal [],
      .placeholder "id".toList, .literal []]
    ofSegments ss = "/[]/[id/[[id]]/[id]x/v[id]//[id]/".toList ∧ segments (ofSegments ss) = ss ∧
      segments (ofSegments [.literal "[id]".toList]) ≠ [.literal "[id]".toList] := by
  intro ss
  obtain ⟨-, hread, -⟩ := segments_one_to_one
  exact ⟨by decide, (hread ss).2 (by decide), mt (hread _).1 (by decide)⟩

/-! ### Names -/

theorem mem_names {n : Text} : n ∈ names p ↔ .placeholder n ∈ segments p := by
  rw [names, List.mem_filterMap]
  constructor
  · rintro ⟨g, hg, hn⟩
    cases g with
    | literal t => cases hn
    | placeholder m =>
      obtain rfl := Option.some.inj hn
      exact hg
  · intro h
    exact ⟨_, h, rfl⟩

theorem isDynamic_iff : isDynamic p = true ↔ names p ≠ [] := by
  rw [isDynamic, names, ne_eq, List.filterMap_eq_nil_iff, List.any_eq_true]
  push Not
  refine exists_congr fun s => and_congr_right fun _ => ?_
  cases s <;> simp [Segment.isPlaceholder, Segment.name?]

theorem isDynamic_eq_false_iff : isDynamic p = false ↔ names p = [] := by
  rw [← Bool.not_eq_true, isDynamic_iff, not_not]

end Pattern

end FileRoutes
