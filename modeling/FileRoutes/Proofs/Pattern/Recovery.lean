import FileRoutes.Proofs.Pattern.Matching

/-!
# What a matchable form tells about its pattern

The matchable form of a pattern is read back item by item: every character of a literal is escaped
if it has a meaning of its own, so nothing in a literal looks like a group, and no item of a segment
is the character `/`, so the items are cut into segments again.  Only the names of the placeholders
are lost:

* `Matchable.text_injective` : a text is the written form of one list of items only;
* `Pattern.expression_eq_iff` : the items of two patterns are the same exactly when the segments
  are, up to the names of placeholders;
* `Pattern.restore?` : the pattern with a given matchable form and given names;
* `Pattern.matchable_recovers` : what the matchable form tells, and that with the names it tells
  everything.
-/

namespace FileRoutes

open Matchable (Atom)

/-- Both segments are the same literal, or both are placeholders. -/
def Segment.SameUpToName : Segment → Segment → Prop
  | .literal t, .literal u => t = u
  | .placeholder _, .placeholder _ => True
  | _, _ => False

/-! ### Items from an expression -/

namespace Regex

/-- The item that an expression stands for. -/
def atom? : Regex → Option Atom
  | .char c => some (.char c)
  | r => if r = ofAtom .capture then some .capture else none

/-- The items in front of the closing anchor. -/
def atomsBeforeStop? : Regex → Option (List Atom)
  | .cat .stop .empty => some []
  | .cat r s =>
    match r.atom?, atomsBeforeStop? s with
    | some a, some as => some (a :: as)
    | _, _ => none
  | _ => none

/-- The items between two anchors. -/
def atoms? : Regex → Option (List Atom)
  | .cat .start r => r.atomsBeforeStop?
  | _ => none

theorem atoms?_ofAtoms (as : List Atom) : (ofAtoms as).atoms? = some as := by
  have hitems : (seq (as.map ofAtom ++ [.stop])).atomsBeforeStop? = some as := by
    induction as with
    | nil => rfl
    | cons a as ih =>
      rw [List.map_cons, List.cons_append, seq]
      -- an item is no anchor, so the second case applies
      cases a <;> simp [atomsBeforeStop?, ofAtom, atom?, ih]
  exact hitems

end Regex

/-- **A text is the written form of one list of items only.** -/
theorem Matchable.text_injective : Function.Injective Matchable.text := by
  intro as bs h
  have hread := congrArg (fun t => (Regex.ofText? t).bind Regex.atoms?) h
  simpa [Regex.ofText?_text, Regex.atoms?_ofAtoms] using hread

/-! ### Segments from items -/

namespace Matchable

theorem map_char_ne_capture (t : Text) : t.map Atom.char ≠ [.capture] := by
  intro h
  obtain ⟨c, -, hc⟩ := List.map_eq_singleton_iff.1 h
  cases hc

/-- The items of two segments are the same exactly when the segments are, up to names. -/
theorem ofSegment_eq_iff {g h : Segment} : ofSegment g = ofSegment h ↔ g.SameUpToName h := by
  cases g with
  | literal t =>
    cases h with
    | literal u =>
      have hchar : Function.Injective Atom.char := fun c c' => Atom.char.inj
      exact (List.map_injective_iff.2 hchar).eq_iff
    | placeholder n => exact iff_of_false (map_char_ne_capture t) id
  | placeholder m =>
    cases h with
    | literal u => exact iff_of_false (map_char_ne_capture u).symm id
    | placeholder n => exact iff_of_true rfl trivial

theorem slash_notMem_ofSegment {g : Segment} (hg : ∀ t, g = .literal t → '/' ∉ t) :
    .char '/' ∉ ofSegment g := by
  cases g with
  | literal t =>
    intro h
    obtain ⟨c, hc, heq⟩ := List.mem_map.1 h
    obtain rfl := Atom.char.inj heq
    exact hg t rfl hc
  | placeholder n => simp [ofSegment]

end Matchable

namespace Pattern

/-- Cut at the slashes, the items of a pattern are those of its segments. -/
theorem splitOn_expression (p : Text) :
    splitOn (.char '/') (expression p) = (segments p).map Matchable.ofSegment := by
  refine splitOn_joinWith (by simpa using segments_ne_nil p) ?_
  intro as has
  obtain ⟨g, hg, rfl⟩ := List.mem_map.1 has
  refine Matchable.slash_notMem_ofSegment ?_
  rintro t rfl
  exact slash_notMem_of_literal hg

/-- The items of two patterns are the same exactly when the segments are, up to names. -/
theorem expression_eq_iff {p q : Text} :
    expression p = expression q ↔
      List.Forall₂ Segment.SameUpToName (segments p) (segments q) := by
  have hcut : expression p = expression q ↔
      (segments p).map Matchable.ofSegment = (segments q).map Matchable.ofSegment := by
    rw [← splitOn_expression, ← splitOn_expression]
    refine ⟨congrArg _, fun h => ?_⟩
    rw [← joinWith_splitOn (.char '/') (expression p), h, joinWith_splitOn]
  rw [hcut, ← List.forall₂_eq_eq_eq, List.forall₂_map_left_iff, List.forall₂_map_right_iff]
  simp only [Matchable.ofSegment_eq_iff]

/-! ### Names put back -/

/-- The text that items are read from, when the placeholders have the given names. -/
def withNames : List Atom → List Text → Text
  | [], _ => []
  | .char c :: as, ns => c :: withNames as ns
  | .capture :: as, ns => Segment.text (.placeholder (ns.headD [])) ++ withNames as ns.tail

/-- The pattern with a matchable form and the names of its placeholders. -/
def restore? (t : Text) (ns : List Text) : Option Text :=
  ((Regex.ofText? t).bind Regex.atoms?).map fun as => withNames as ns

theorem withNames_ofSegment (g : Segment) (as : List Atom) (ns : List Text) :
    withNames (Matchable.ofSegment g ++ as) (g.name?.toList ++ ns) =
      g.text ++ withNames as ns := by
  cases g with
  | placeholder n => rfl
  | literal t =>
    induction t with
    | nil => rfl
    | cons c t ih => exact congrArg (c :: ·) ih

theorem withNames_ofSegments (ss : List Segment) :
    withNames (Matchable.ofSegments ss) (ss.filterMap Segment.name?) = ofSegments ss := by
  have hnames (g : Segment) (ss : List Segment) :
      (g :: ss).filterMap Segment.name? = g.name?.toList ++ ss.filterMap Segment.name? := by
    cases g <;> rfl
  induction ss with
  | nil => rfl
  | cons g ss ih =>
    rw [hnames]
    cases ss with
    | nil =>
      have hone := withNames_ofSegment g [] []
      simpa [Matchable.ofSegments, ofSegments, joinWith, withNames] using hone
    | cons g' ss =>
      -- between two segments stands a slash, in the items as in the pattern
      have hslash : Matchable.ofSegments (g :: g' :: ss) =
          Matchable.ofSegment g ++ .char '/' :: Matchable.ofSegments (g' :: ss) := rfl
      rw [hslash, withNames_ofSegment, withNames, ih]
      rfl

/-- A pattern is restored from its matchable form and its names. -/
theorem restore?_matchable (p : Text) : restore? (matchable p) (names p) = some p := by
  rw [restore?, matchable, Regex.ofText?_text, Option.bind_some, Regex.atoms?_ofAtoms,
    Option.map_some]
  exact congrArg some ((withNames_ofSegments (segments p)).trans (ofSegments_segments p))

/-- **The matchable form of a pattern loses the names of its placeholders and nothing else.**  Two
patterns have the same one exactly when they have as many segments and, at each position, the same
literal or two placeholders; with its names a pattern is restored from it. -/
theorem matchable_recovers (p q : Text) :
    (matchable p = matchable q ↔
      List.Forall₂ Segment.SameUpToName (segments p) (segments q)) ∧
    restore? (matchable p) (names p) = some p := by
  refine ⟨?_, restore?_matchable p⟩
  rw [← expression_eq_iff]
  exact Matchable.text_injective.eq_iff

/-- A literal made of the characters of a group is not taken for a placeholder. -/
example :
    restore? (matchable "/([^/]+)/[id]".toList) ["id".toList] = some "/([^/]+)/[id]".toList := by
  decide

end Pattern

end FileRoutes
