import FileRoutes.Pattern.Match
import FileRoutes.Proofs.Pattern.Regex
import FileRoutes.Proofs.Pattern.Segments
import Mathlib.Data.List.Forall2

/-!
# What matching means

A path matches a pattern when it has as many segments, every literal stands opposite itself and
every placeholder opposite a segment that is not empty (`Pattern.Fits`).  The same is said in
three other ways, and all of them agree:

* the expression of the pattern accepts the path (`Matchable.accepts_ofSegments`);
* running the expression, long captures first, succeeds (`Matchable.accepts_of_run`,
  `Matchable.isSome_run`);
* comparing segment by segment succeeds (`Pattern.alignSegments?_eq_some`).

`Pattern.matchable_meaning` puts this together for the regular expression that is read from the
matchable form of a pattern.
-/

namespace FileRoutes

namespace Matchable

/-! ### Running an expression -/

section Grab

variable {k : Text → Option (List Text)} {taken s x r : Text} {cs : List Text}

/-- Capturing nothing more. -/
theorem map_taken_eq_some (h : (k s).map (taken.reverse :: ·) = some cs) :
    ∃ x r cs', s = x ++ r ∧ '/' ∉ x ∧ k r = some cs' ∧ cs = (taken.reverse ++ x) :: cs' := by
  obtain ⟨cs', hk, rfl⟩ := Option.map_eq_some_iff.1 h
  exact ⟨[], s, cs', rfl, by simp, hk, by simp⟩

theorem grab_eq_some (h : grab k taken s = some cs) :
    ∃ x r cs', s = x ++ r ∧ '/' ∉ x ∧ k r = some cs' ∧ cs = (taken.reverse ++ x) :: cs' := by
  induction s generalizing taken cs with
  | nil => exact map_taken_eq_some h
  | cons c s ih =>
    rw [grab] at h
    split at h
    · exact map_taken_eq_some h
    · rename_i hc
      split at h
      · rename_i cs₁ hg
        obtain rfl := Option.some.inj h
        obtain ⟨x, r, cs', rfl, hx, hk, rfl⟩ := ih hg
        exact ⟨c :: x, r, cs', rfl, by simp [hx, Ne.symm hc], hk, by simp⟩
      · exact map_taken_eq_some h

theorem isSome_grab (hk : (k r).isSome) (hx : '/' ∉ x) : (grab k taken (x ++ r)).isSome := by
  induction x generalizing taken with
  | nil =>
    cases r with
    | nil => simpa [grab] using hk
    | cons c r =>
      rw [List.nil_append, grab]
      split
      · simpa using hk
      · split
        · rfl
        · simpa using hk
  | cons c x ih =>
    rw [List.mem_cons, not_or] at hx
    rw [List.cons_append, grab, if_neg (Ne.symm hx.1)]
    have htail : (grab k (c :: taken) (x ++ r)).isSome := ih hx.2
    obtain ⟨cs, hcs⟩ := Option.isSome_iff_exists.1 htail
    rw [hcs]
    rfl

end Grab

/-- What running an expression finds is accepted. -/
theorem accepts_of_run {as : List Atom} {s : Text} {cs : List Text} (h : run as s = some cs) :
    Accepts as s cs := by
  induction as generalizing s cs with
  | nil =>
    cases s with
    | nil =>
      obtain rfl := Option.some.inj h
      exact .nil
    | cons x s => cases h
  | cons a as ih =>
    cases a with
    | char c =>
      cases s with
      | nil => cases h
      | cons x s =>
        rw [run] at h
        split at h
        · rename_i hx
          exact hx ▸ .char x (ih h)
        · cases h
    | capture =>
      cases s with
      | nil => cases h
      | cons x s =>
        rw [run] at h
        split at h
        · cases h
        · rename_i hx
          obtain ⟨y, r, cs', rfl, hy, hk, rfl⟩ := grab_eq_some h
          exact .capture (x :: y) (by simp) (by simp [hy, Ne.symm hx]) (ih hk)

/-- Running an expression finds something whenever something is accepted. -/
theorem isSome_run {as : List Atom} {s : Text} {cs : List Text} (h : Accepts as s cs) :
    (run as s).isSome := by
  induction h with
  | nil => rfl
  | char c _ ih => simpa [run] using ih
  | capture x hx hs _ ih =>
    cases x with
    | nil => exact absurd rfl hx
    | cons c x =>
      rw [List.mem_cons, not_or] at hs
      rw [List.cons_append, run, if_neg (Ne.symm hs.1)]
      exact isSome_grab ih hs.2

/-! ### Pieces of an expression -/

theorem accepts_append {as bs : List Atom} {s : Text} {cs : List Text} :
    Accepts (as ++ bs) s cs ↔ ∃ s₁ s₂ cs₁ cs₂,
      s = s₁ ++ s₂ ∧ cs = cs₁ ++ cs₂ ∧ Accepts as s₁ cs₁ ∧ Accepts bs s₂ cs₂ := by
  constructor
  · intro h
    induction as generalizing s cs with
    | nil => exact ⟨[], s, [], cs, rfl, rfl, .nil, h⟩
    | cons a as ih =>
      cases h with
      | char c h =>
        obtain ⟨s₁, s₂, cs₁, cs₂, rfl, rfl, h₁, h₂⟩ := ih h
        exact ⟨c :: s₁, s₂, cs₁, cs₂, rfl, rfl, .char c h₁, h₂⟩
      | capture x hx hs h =>
        obtain ⟨s₁, s₂, cs₁, cs₂, rfl, rfl, h₁, h₂⟩ := ih h
        exact ⟨x ++ s₁, s₂, x :: cs₁, cs₂, by simp, rfl, .capture x hx hs h₁, h₂⟩
  · rintro ⟨s₁, s₂, cs₁, cs₂, rfl, rfl, h₁, h₂⟩
    induction h₁ with
    | nil => exact h₂
    | char c _ ih => exact .char c ih
    | capture x hx hs _ ih =>
      rw [List.append_assoc]
      exact .capture x hx hs ih

theorem accepts_chars {t s : Text} {cs : List Text} :
    Accepts (t.map .char) s cs ↔ s = t ∧ cs = [] := by
  constructor
  · intro h
    induction t generalizing s with
    | nil => cases h; exact ⟨rfl, rfl⟩
    | cons c t ih =>
      cases h with
      | char _ h =>
        obtain ⟨rfl, rfl⟩ := ih h
        exact ⟨rfl, rfl⟩
  · rintro ⟨rfl, rfl⟩
    induction s with
    | nil => exact .nil
    | cons c s ih => exact .char c ih

theorem accepts_capture {s : Text} {cs : List Text} :
    Accepts [.capture] s cs ↔ s ≠ [] ∧ '/' ∉ s ∧ cs = [s] := by
  constructor
  · intro h
    cases h with
    | capture x hx hs h =>
      cases h
      rw [List.append_nil]
      exact ⟨hx, hs, rfl⟩
  · rintro ⟨hx, hs, rfl⟩
    simpa using Accepts.capture s hx hs .nil

end Matchable

/-! ### Segment by segment -/

/-- A path segment fits a segment of a pattern: a literal itself, a placeholder anything that is
not empty. -/
def Segment.Fits : Segment → Text → Prop
  | .literal t, s => s = t
  | .placeholder _, s => s ≠ []

namespace Pattern

/-- The segments of a path fit those of a pattern: there are as many, and each fits the one at
its position. -/
def Fits (ss : List Segment) (path : List Text) : Prop :=
  ss.length = path.length ∧
    ∀ i (h₁ : i < ss.length) (h₂ : i < path.length), ss[i].Fits path[i]

/-- The segments of a path that stand opposite placeholders. -/
def captured (ss : List Segment) (path : List Text) : List Text :=
  ((ss.zip path).filter fun e => e.1.isPlaceholder).map Prod.snd

theorem fits_iff {ss : List Segment} {path : List Text} :
    Fits ss path ↔ List.Forall₂ Segment.Fits ss path := by
  rw [List.forall₂_iff_get]
  rfl

@[simp] theorem captured_literal (t s : Text) (ss : List Segment) (path : List Text) :
    captured (.literal t :: ss) (s :: path) = captured ss path := rfl

@[simp] theorem captured_placeholder (n s : Text) (ss : List Segment) (path : List Text) :
    captured (.placeholder n :: ss) (s :: path) = s :: captured ss path := rfl

theorem alignSegments?_eq_some {ss : List Segment} {path cs : List Text} :
    alignSegments? ss path = some cs ↔ Fits ss path ∧ cs = captured ss path := by
  rw [fits_iff]
  induction ss generalizing path cs with
  | nil => cases path <;> simp [alignSegments?, captured, eq_comm]
  | cons g ss ih =>
    cases path with
    | nil => cases g <;> simp [alignSegments?]
    | cons s path =>
      rw [List.forall₂_cons]
      cases g with
      | literal t =>
        by_cases h : s = t <;> simp [alignSegments?, Segment.Fits, h, ih]
      | placeholder n =>
        by_cases h : s = []
        · simp [alignSegments?, Segment.Fits, h]
        · simp only [alignSegments?, Segment.Fits, if_neg h, Option.map_eq_some_iff, ih,
            captured_placeholder]
          constructor
          · rintro ⟨cs', ⟨hf, rfl⟩, rfl⟩
            exact ⟨⟨h, hf⟩, rfl⟩
          · rintro ⟨⟨-, hf⟩, rfl⟩
            exact ⟨_, ⟨hf, rfl⟩, rfl⟩

end Pattern

namespace Matchable

open Pattern (Fits captured fits_iff)

theorem accepts_ofSegment {g : Segment} {s : Text} {cs : List Text}
    (hg : ∀ t, g = .literal t → '/' ∉ t) :
    Accepts (ofSegment g) s cs ↔ '/' ∉ s ∧ g.Fits s ∧ cs = captured [g] [s] := by
  cases g with
  | literal t =>
    rw [ofSegment, accepts_chars]
    constructor
    · rintro ⟨rfl, rfl⟩
      exact ⟨hg s rfl, rfl, rfl⟩
    · rintro ⟨-, rfl, rfl⟩
      exact ⟨rfl, rfl⟩
  | placeholder n =>
    rw [ofSegment, accepts_capture]
    constructor
    · rintro ⟨hx, hs, rfl⟩
      exact ⟨hs, hx, rfl⟩
    · rintro ⟨hs, hx, rfl⟩
      exact ⟨hx, hs, rfl⟩

/-- **The expression of some segments accepts the paths whose segments fit them**, and captures
what stands opposite the placeholders. -/
theorem accepts_ofSegments {ss : List Segment} (hne : ss ≠ [])
    (hss : ∀ t, .literal t ∈ ss → '/' ∉ t) {s : Text} {cs : List Text} :
    Accepts (ofSegments ss) s cs ↔
      Fits ss (splitOn '/' s) ∧ cs = captured ss (splitOn '/' s) := by
  rw [fits_iff]
  induction ss generalizing s cs with
  | nil => exact absurd rfl hne
  | cons g ss ih =>
    have hg : ∀ t, g = .literal t → '/' ∉ t := fun t h => hss t (h ▸ List.mem_cons_self)
    cases ss with
    | nil =>
      rw [ofSegments, List.map_cons, List.map_nil, joinWith, accepts_ofSegment hg]
      obtain ⟨hs, hsplit⟩ | ⟨x, s', -, rfl, hsplit⟩ := splitOn_cases '/' s
      · rw [hsplit]
        simp [hs]
      · -- a path with more segments than the pattern
        obtain ⟨y, ys, hys⟩ := List.exists_cons_of_ne_nil (splitOn_ne_nil '/' s')
        rw [hsplit, hys]
        simp
    | cons g' ss =>
      have ih := @ih (by simp) fun t ht => hss t (List.mem_cons_of_mem g ht)
      have hcat : ofSegments (g :: g' :: ss) =
          ofSegment g ++ .char '/' :: ofSegments (g' :: ss) := rfl
      rw [hcat, accepts_append]
      constructor
      · -- the first segment of the path ends at the separator that the expression asks for
        rintro ⟨s₁, s₂, cs₁, cs₂, rfl, rfl, h₁, h₂⟩
        obtain ⟨hs, hfit, rfl⟩ := (accepts_ofSegment hg).1 h₁
        cases h₂ with
        | char _ h₂ =>
          obtain ⟨hfits, rfl⟩ := ih.1 h₂
          rw [splitOn_append_cons hs]
          refine ⟨.cons hfit hfits, ?_⟩
          cases g <;> rfl
      · obtain ⟨hs, hsplit⟩ | ⟨x, s', hx, rfl, hsplit⟩ := splitOn_cases '/' s
        · -- a path with one segment only
          rw [hsplit]
          simp
        · rw [hsplit, List.forall₂_cons]
          rintro ⟨⟨hfit, hfits⟩, rfl⟩
          refine ⟨x, '/' :: s', captured [g] [x], _, rfl, ?_, (accepts_ofSegment hg).2
            ⟨hx, hfit, rfl⟩, .char '/' (ih.2 ⟨hfits, rfl⟩)⟩
          cases g <;> rfl

theorem groups_ofSegments (ss : List Segment) :
    groups (ofSegments ss) = (ss.filterMap Segment.name?).length := by
  have hchars (t : Text) : groups (t.map .char) = 0 := by
    simp [groups, List.count_eq_zero]
  have hone (g : Segment) : groups (ofSegment g) = (g.name?.toList).length := by
    cases g with
    | literal t => exact hchars t
    | placeholder n => rfl
  induction ss with
  | nil => rfl
  | cons g ss ih =>
    have hcons : groups (ofSegments (g :: ss)) = groups (ofSegment g) + groups (ofSegments ss) := by
      cases ss with
      | nil => simp [ofSegments, joinWith, groups]
      | cons g' ss => simp [ofSegments, joinWith, groups]
    rw [hcons, ih, hone]
    cases g <;> simp [Segment.name?, Nat.add_comm, List.filterMap_cons]

end Matchable

namespace Pattern

theorem accepts_expression {p s : Text} {cs : List Text} :
    Matchable.Accepts (expression p) s cs ↔
      Fits (segments p) (splitOn '/' s) ∧ cs = captured (segments p) (splitOn '/' s) :=
  Matchable.accepts_ofSegments (segments_ne_nil p) fun _ => slash_notMem_of_literal

/-- **Running the expression of a pattern compares segment by segment.** -/
theorem captures?_eq (p s : Text) :
    captures? p s = alignSegments? (segments p) (splitOn '/' s) := by
  refine Option.ext fun cs => ?_
  rw [alignSegments?_eq_some, ← accepts_expression, captures?]
  refine ⟨Matchable.accepts_of_run, fun h => ?_⟩
  obtain ⟨cs', hcs'⟩ := Option.isSome_iff_exists.1 (Matchable.isSome_run h)
  -- the path decides what is captured, so running it finds nothing else
  have h' := accepts_expression.1 (Matchable.accepts_of_run hcs')
  rw [hcs', h'.2, (accepts_expression.1 h).2]

theorem isMatch_iff {p s : Text} :
    isMatch p s = true ↔ Fits (segments p) (splitOn '/' s) := by
  rw [isMatch, Option.isSome_iff_exists]
  simp only [captures?_eq, alignSegments?_eq_some, exists_and_left, exists_eq, and_true]

/-- **What the matchable form of a pattern means.**  It is a regular expression with one group for
each placeholder.  It finds something in exactly the paths whose segments fit those of the
pattern, and its groups capture the segments opposite the placeholders; matching a path says the
same, and so does comparing it segment by segment. -/
theorem matchable_meaning (p : Text) :
    ∃ e, Regex.ofText? (matchable p) = some e ∧ e.groups = (names p).length ∧
      (∀ s cs, e.Finds s cs ↔
        Fits (segments p) (splitOn '/' s) ∧ cs = captured (segments p) (splitOn '/' s)) ∧
      ∀ s, (isMatch p s = true ↔ Fits (segments p) (splitOn '/' s)) ∧
        captures? p s = alignSegments? (segments p) (splitOn '/' s) := by
  refine ⟨.ofAtoms (expression p), Regex.ofText?_text _, ?_, fun s cs => ?_, fun s => ?_⟩
  · rw [Regex.groups_ofAtoms]
    exact Matchable.groups_ofSegments _
  · rw [Regex.finds_ofAtoms, accepts_expression]
  · exact ⟨isMatch_iff, captures?_eq p s⟩

end Pattern

end FileRoutes
