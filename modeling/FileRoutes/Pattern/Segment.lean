import FileRoutes.Text.Split

/-!
# Patterns and their segments

A route pattern is a text such as `/user/[id]`.  It is cut at every `/`, and each piece is a
segment: a placeholder when the whole piece is a name in brackets, and otherwise literal text.
A leading slash gives an empty literal in front, a trailing slash one at the end.

* `Segment.ofText` reads one piece and `Segment.text` writes it;
* `Pattern.segments` reads a pattern and `Pattern.ofSegments` writes it;
* `Segment.WellFormed` says which segments are the reading of some piece.
-/

namespace FileRoutes

/-- One piece of a pattern. -/
inductive Segment where
  /-- A placeholder `[name]`, which stands for any one path segment. -/
  | placeholder (name : Text)
  /-- Text that stands for itself. -/
  | literal (text : Text)
  deriving DecidableEq, Repr

namespace Segment

/-- Names are non-empty and hold no bracket. -/
def isName (name : Text) : Bool := !name.isEmpty && name.all fun c => c != '[' && c != ']'

/-- The text between a `[` at the front and a `]` at the end. -/
def bracketed? : Text → Option Text
  | '[' :: r => if r.getLast? = some ']' then some r.dropLast else none
  | _ => none

/-- The segment that a piece of a pattern is.  Brackets that do not hold a name are literal. -/
def ofText (t : Text) : Segment :=
  match bracketed? t with
  | some name => if isName name then .placeholder name else .literal t
  | none => .literal t

/-- The piece of a pattern that a segment is written as. -/
def text : Segment → Text
  | .placeholder name => '[' :: (name ++ [']'])
  | .literal t => t

/-- The name of a placeholder. -/
def name? : Segment → Option Text
  | .placeholder name => some name
  | .literal _ => none

/-- The segment is a placeholder. -/
def isPlaceholder : Segment → Bool
  | .placeholder _ => true
  | .literal _ => false

/-- What a placeholder can be named: something, and without brackets. -/
def ProperName (name : Text) : Prop := name ≠ [] ∧ '[' ∉ name ∧ ']' ∉ name

/-- Segments that can stand in a pattern: no text holds a `/`, placeholders have proper names, and
no literal is a proper name in brackets. -/
def WellFormed : Segment → Prop
  | .placeholder name => ProperName name ∧ '/' ∉ name
  | .literal t => '/' ∉ t ∧ ∀ name, ProperName name → t ≠ '[' :: (name ++ [']'])

end Segment

namespace Pattern

/-- The segments of a pattern, left to right. -/
def segments (p : Text) : List Segment := (splitOn '/' p).map Segment.ofText

/-- The pattern with the given segments. -/
def ofSegments (ss : List Segment) : Text := joinWith '/' (ss.map Segment.text)

/-- The names of the placeholders, left to right. -/
def names (p : Text) : List Text := (segments p).filterMap Segment.name?

/-- The pattern has a placeholder. -/
def isDynamic (p : Text) : Bool := (segments p).any Segment.isPlaceholder

/-- The number of segments that are not empty. -/
def depth (p : Text) : Nat := ((splitOn '/' p).filter fun s => !s.isEmpty).length

end Pattern

end FileRoutes
