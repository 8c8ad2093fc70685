import FileRoutes.Pattern.Segment

/-!
# Matchable patterns

The matchable form of a pattern is a regular expression anchored at both ends.  It uses a small
fragment of the usual language: characters, escaped where they have a meaning of their own,
and the group `([^/]+)`, which captures one non-empty path segment.

* `Matchable.Atom` is one item of an expression, `Matchable.ofSegments` the expression of a
  pattern;
* `Matchable.text` writes an expression;
* `Matchable.Accepts` is the meaning of an expression: the texts it accepts, with what its
  groups capture; `Matchable.run` decides it, trying long captures first.
-/

namespace FileRoutes

namespace Matchable

/-- One item of an expression. -/
inductive Atom where
  /-- The character itself. -/
  | char (c : Char)
  /-- The group `([^/]+)`: one or more characters other than `/`, captured. -/
  | capture
  deriving DecidableEq, Repr

/-- The characters with a meaning of their own in regular expressions. -/
def metaChars : Text :=
  ['\\', '.', '+', '*', '?', '(', ')', '|', '[', ']', '\x7b', '\x7d', '^', '$', '#', '&', '-', '~']

/-- The written form of the capturing group. -/
def captureText : Text := ['(', '[', '^', '/', ']', '+', ')']

/-- The written form of a character. -/
def escapeChar (c : Char) : Text := if c ∈ metaChars then ['\\', c] else [c]

/-- The written form of an item. -/
def Atom.text : Atom → Text
  | .char c => escapeChar c
  | .capture => captureText

/-- The written form of an expression, anchored at both ends. -/
def text (as : List Atom) : Text := '^' :: (as.flatMap Atom.text ++ ['$'])

/-- The items for one segment. -/
def ofSegment : Segment → List Atom
  | .placeholder _ => [.capture]
  | .literal t => t.map .char

/-- The expression of a list of segments. -/
def ofSegments (ss : List Segment) : List Atom := joinWith (.char '/') (ss.map ofSegment)

/-- The number of capturing groups. -/
def groups (as : List Atom) : Nat := as.count .capture

/-! ### Meaning -/

/-- The expression accepts the whole text, and its groups capture the given texts in order. -/
inductive Accepts : List Atom → Text → List Text → Prop where
  | nil : Accepts [] [] []
  | char {as : List Atom} {s : Text} {cs : List Text} (c : Char) :
      Accepts as s cs → Accepts (.char c :: as) (c :: s) cs
  | capture {as : List Atom} {s : Text} {cs : List Text} (x : Text) :
      x ≠ [] → '/' ∉ x → Accepts as s cs → Accepts (.capture :: as) (x ++ s) (x :: cs)

/-- Capture as much as possible of a text, and then less and less, until `k` accepts what is
left.  `taken`, last character first, was captured already, and may be all only if `k` accepts
the text as it is. -/
def grab (k : Text → Option (List Text)) (taken : Text) : Text → Option (List Text)
  | [] => (k []).map (taken.reverse :: ·)
  | c :: s =>
    if c = '/' then (k (c :: s)).map (taken.reverse :: ·)
    else
      match grab k (c :: taken) s with
      | some r => some r
      | none => (k (c :: s)).map (taken.reverse :: ·)

/-- What the groups capture when the expression accepts the whole text. -/
def run : List Atom → Text → Option (List Text)
  | [], [] => some []
  | [], _ :: _ => none
  | .char _ :: _, [] => none
  | .char c :: as, x :: s => if x = c then run as s else none
  | .capture :: _, [] => none
  | .capture :: as, x :: s => if x = '/' then none else grab (run as) [x] s

end Matchable

namespace Pattern

/-- The expression of a pattern. -/
def expression (p : Text) : List Matchable.Atom := Matchable.ofSegments (segments p)

/-- The matchable form of a pattern. -/
def matchable (p : Text) : Text := Matchable.text (expression p)

end Pattern

end FileRoutes
