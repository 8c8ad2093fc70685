import FileRoutes.Proofs.Pattern.RoundTrip
import Mathlib.Data.Fintype.EquivFin

/-!
# Patterns that match the same paths

All patterns that match a path have the depth of that path, whatever their empty segments, literals
and placeholders (`Pattern.depth_eq_of_isMatch`).

A pattern is broader than another one (`Pattern.Broader`) when it matches everything the other one
does, and more.  Then it has more placeholders (`Pattern.Broader.length_names_lt`): position by
position it accepts what the other one accepts (`Segment.Covers`), so it has a placeholder wherever
the other one has.

Whether a pattern matches everything another one does can be read off the two
(`Pattern.Generalises`, `Pattern.generalises_iff`).  One path tells this for many patterns at once:
some path of a pattern is matched by none of the given ones, except by those that generalise it
(`Pattern.exists_isMatch_only`).
-/

namespace FileRoutes

/-- `h` fits everything that `g` fits. -/
def Segment.Covers (g h : Segment) : Prop := ∀ x, g.Fits x → h.Fits x

/-- Both segments are the same literal, or the first one is a placeholder and the second one can
stand opposite it: it is a placeholder, too, or a literal that is not empty. -/
def Segment.Generalises : Segment → Segment → Prop
  | .literal t, .literal u => t = u
  | .literal _, .placeholder _ => False
  | .placeholder _, .literal u => u ≠ []
  | .placeholder _, .placeholder _ => True

instance : DecidableRel Segment.Generalises
  | .literal t, .literal u => inferInstanceAs (Decidable (t = u))
  | .literal _, .placeholder _ => inferInstanceAs (Decidable False)
  | .placeholder _, .literal u => inferInstanceAs (Decidable (u ≠ []))
  | .placeholder _, .placeholder _ => inferInstanceAs (Decidable True)

namespace Pattern

/-- `q` has as many segments as `p`, and each of them generalises the one of `p` at its
position. -/
def Generalises (q p : Text) : Prop :=
  List.Forall₂ Segment.Generalises (segments q) (segments p)

instance : DecidableRel Generalises := fun q p =>
  inferInstanceAs (Decidable (List.Forall₂ Segment.Generalises (segments q) (segments p)))

/-- `q` matches every path that `p` matches, and some others. -/
structure Broader (q p : Text) : Prop where
  matches_of : ∀ s, isMatch p s = true → isMatch q s = true
  matches_more : ∃ s, isMatch q s = true ∧ isMatch p s = false

variable {p q s : Text}

/-! ### Depth -/

/-- A piece of a pattern is empty exactly when the segments it fits are. -/
theorem fits_ofText_nil {piece x : Text} (h : (Segment.ofText piece).Fits x) :
    piece = [] ↔ x = [] := by
  cases hread : Segment.ofText piece with
  | literal t =>
    rw [hread] at h
    rw [Segment.eq_of_ofText_literal hread]
    exact h ▸ Iff.rfl
  | placeholder n =>
    obtain ⟨-, rfl⟩ := Segment.ofText_eq_placeholder.1 hread
    rw [hread] at h
    exact iff_of_false (List.cons_ne_nil _ _) h

/-- **A path has the depth of every pattern that matches it.** -/
theorem depth_eq_of_isMatch (h : isMatch p s = true) : depth p = depth s := by
  have hfits := fits_iff.1 (isMatch_iff.1 h)
  rw [segments, List.forall₂_map_left_iff] at hfits
  rw [depth, depth]
  generalize splitOn '/' p = pieces, splitOn '/' s = xs at hfits
  induction hfits with
  | nil => rfl
  | @cons piece x _ _ hfit _ ih =>
    have hnil := fits_ofText_nil hfit
    by_cases hx : x = []
    · simpa [hnil.2 hx, hx] using ih
    · have hpiece := mt hnil.1 hx
      simpa [hpiece, hx] using ih

/-! ### Breadth -/

/-- What fits all texts that stand for a placeholder is a placeholder. -/
theorem covers_placeholder {n : Text} {h : Segment}
    (hcov : (Segment.placeholder n).Covers h) : h.isPlaceholder = true := by
  cases h with
  | placeholder m => rfl
  | literal t =>
    -- a literal cannot be both of two different texts
    have ha : ['a'] = t := hcov ['a'] (by simp [Segment.Fits])
    have hb : ['b'] = t := hcov ['b'] (by simp [Segment.Fits])
    cases ha.trans hb.symm

theorem covers_of_filled {g h : Segment} (ha : h.Fits (filled (fun _ => ['a']) g))
    (hb : h.Fits (filled (fun _ => ['b']) g)) : g.Covers h := by
  intro x hx
  cases g with
  | literal t => exact hx ▸ ha
  | placeholder n =>
    cases h with
    | placeholder m => exact hx
    | literal t =>
      have ha : Percent.encode ['a'] = t := ha
      have hb : Percent.encode ['b'] = t := hb
      exact absurd (ha.trans hb.symm) (by decide)

/-- A pattern that matches everything another one does covers it segment by segment. -/
theorem forall₂_covers (h : ∀ s, isMatch p s = true → isMatch q s = true) :
    List.Forall₂ Segment.Covers (segments p) (segments q) := by
  -- two paths that differ wherever `p` has a placeholder tell where `q` has one
  have hfilled {x : Text} (hx : x ≠ []) :
      List.Forall₂ (fun g g' => g'.Fits (filled (fun _ => x) g)) (segments p) (segments q) := by
    have hp : isMatch p (filledPath p fun _ => x) = true := by
      rw [isMatch_iff, splitOn_filledPath]
      exact fits_filled.2 fun _ _ => hx
    have hq := fits_iff.1 (isMatch_iff.1 (h _ hp))
    rw [splitOn_filledPath, List.forall₂_map_right_iff] at hq
    exact hq.flip
  have ha := hfilled (x := ['a']) (by simp)
  have hb := hfilled (x := ['b']) (by simp)
  generalize segments p = gs, segments q = hs at ha hb
  induction ha with
  | nil => exact .nil
  | cons hfa _ ih =>
    cases hb with
    | cons hfb hb => exact .cons (covers_of_filled hfa hfb) (ih hb)

/-- Covering segments have more placeholders, or they are the same but for names. -/
theorem placeholders_of_covers {gs hs : List Segment} (h : List.Forall₂ Segment.Covers gs hs) :
    (gs.filterMap Segment.name?).length < (hs.filterMap Segment.name?).length ∨
      (gs.filterMap Segment.name?).length = (hs.filterMap Segment.name?).length ∧
        List.Forall₂ (fun g h => h.Covers g) gs hs := by
  induction h with
  | nil => exact .inr ⟨rfl, .nil⟩
  | @cons g h gs hs hcov _ ih =>
    cases g with
    | placeholder n =>
      cases h with
      | literal t => cases covers_placeholder hcov
      | placeholder m =>
        have hback : (Segment.placeholder m).Covers (.placeholder n) := fun _ hx => hx
        obtain hlt | ⟨heq, hrest⟩ := ih
        · exact .inl (Nat.succ_lt_succ hlt)
        · exact .inr ⟨congrArg (· + 1) heq, .cons hback hrest⟩
    | literal t =>
      cases h with
      | literal u =>
        obtain rfl : t = u := hcov t rfl
        obtain hlt | ⟨heq, hrest⟩ := ih
        · exact .inl hlt
        · exact .inr ⟨heq, .cons (fun _ hx => hx) hrest⟩
      | placeholder m =>
        -- a placeholder opposite a literal is one more
        refine .inl ?_
        obtain hlt | ⟨heq, -⟩ := ih
        · exact Nat.lt_succ_of_lt hlt
        · exact Nat.lt_succ_of_le (Nat.le_of_eq heq)

theorem fits_of_covers {gs hs : List Segment} {xs : List Text}
    (h : List.Forall₂ (fun g h => h.Covers g) gs hs) (hfits : List.Forall₂ Segment.Fits hs xs) :
    List.Forall₂ Segment.Fits gs xs := by
  induction h generalizing xs with
  | nil => exact hfits
  | cons hcov _ ih =>
    cases hfits with
    | cons hfit hfits => exact .cons (hcov _ hfit) (ih hfits)

/-- **A broader pattern has more placeholders.** -/
theorem Broader.length_names_lt (h : Broader q p) : (names p).length < (names q).length := by
  obtain hlt | ⟨-, hback⟩ := placeholders_of_covers (forall₂_covers h.matches_of)
  · exact hlt
  · -- otherwise `p` would match everything that `q` matches
    obtain ⟨s, hq, hp⟩ := h.matches_more
    have hfits := fits_iff.1 (isMatch_iff.1 hq)
    cases (isMatch_iff.2 (fits_iff.2 (fits_of_covers hback hfits))).symm.trans hp

/-! ### Generality -/

/-- A segment generalises another one exactly when it fits everything that the other one fits. -/
theorem segment_generalises_iff {g h : Segment} : g.Generalises h ↔ h.Covers g := by
  cases g with
  | literal t =>
    cases h with
    | literal u =>
      constructor
      · rintro rfl x hx
        exact hx
      · intro hcov
        exact (hcov u rfl).symm
    | placeholder n =>
      refine iff_of_false (fun h => h) fun hcov => ?_
      cases covers_placeholder hcov
  | placeholder m =>
    cases h with
    | literal u =>
      constructor
      · rintro hu x rfl
        exact hu
      · intro hcov
        exact hcov u rfl
    | placeholder n => exact iff_of_true trivial fun _ hx => hx

/-- **A pattern generalises another one exactly when it matches every path that the other one
matches.** -/
theorem generalises_iff : Generalises q p ↔ ∀ s, isMatch p s = true → isMatch q s = true := by
  constructor
  · intro h s hs
    have hcov := h.imp fun _ _ => segment_generalises_iff.1
    exact isMatch_iff.2 (fits_iff.2 (fits_of_covers hcov (fits_iff.1 (isMatch_iff.1 hs))))
  · intro h
    exact (forall₂_covers h).flip.imp fun _ _ => segment_generalises_iff.2

/-- There is a value that is written as none of some given texts. -/
theorem exists_fresh_value (ts : List Text) : ∃ v : Text, v ≠ [] ∧ Percent.encode v ∉ ts := by
  obtain ⟨v, hv⟩ := Infinite.exists_notMem_finset ([] :: ts.filterMap Percent.decode?).toFinset
  rw [List.mem_toFinset, List.mem_cons, not_or] at hv
  refine ⟨v, hv.1, fun h => hv.2 ?_⟩
  exact List.mem_filterMap.2 ⟨_, h, Percent.decode?_encode v⟩

/-- A pattern that matches a path made with a value that none of its literals is written as
generalises the pattern of that path. -/
theorem generalises_of_fresh {v : Text} (hfresh : .literal (Percent.encode v) ∉ segments q)
    (h : isMatch q (filledPath p fun _ => v) = true) : Generalises q p := by
  have hfits := fits_iff.1 (isMatch_iff.1 h)
  rw [splitOn_filledPath, List.forall₂_map_right_iff] at hfits
  unfold Generalises
  generalize segments q = gs, segments p = ss at hfresh hfits
  induction hfits with
  | nil => exact .nil
  | @cons g s gs ss hfit _ ih =>
    rw [List.mem_cons, not_or] at hfresh
    refine .cons ?_ (ih hfresh.2)
    cases g with
    | placeholder m =>
      cases s with
      | literal t => exact hfit
      | placeholder n => trivial
    | literal u =>
      cases s with
      | literal t => exact Eq.symm hfit
      | placeholder n =>
        -- the value would be written as a literal of the pattern
        have hu : Percent.encode v = u := hfit
        exact absurd (hu ▸ rfl) hfresh.1

/-- **One path of a pattern tells which of some patterns generalise it.** -/
theorem exists_isMatch_only (p : Text) (qs : List Text) :
    ∃ s, isMatch p s = true ∧ ∀ q ∈ qs, isMatch q s = true → Generalises q p := by
  -- placeholders are among these texts as well, which does no harm
  obtain ⟨v, hv, hfresh⟩ := exists_fresh_value ((qs.flatMap segments).map Segment.text)
  refine ⟨filledPath p fun _ => v, ?_, fun q hq hmatch => generalises_of_fresh ?_ hmatch⟩
  · rw [isMatch_iff, splitOn_filledPath]
    exact fits_filled.2 fun _ _ => hv
  · intro hmem
    exact hfresh (List.mem_map.2 ⟨_, List.mem_flatMap.2 ⟨q, hq, hmem⟩, rfl⟩)

end Pattern

end FileRoutes
