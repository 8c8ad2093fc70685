import FileRoutes.Text.Split

/-!
# Globs

A glob is a pattern for slash-separated texts.  `?` stands for one character, `*` for any run
of characters, `[..]` and `[!..]` for one character in or outside a set; none of them stands
for a `/`.  `**` stands as a whole piece between slashes and covers any number of pieces.

* `Glob.ofText` reads a glob, or says why a text is not one;
* `Glob.covers` says which texts a glob covers.
-/

namespace FileRoutes

namespace Glob

/-- A member of a set of characters. -/
inductive Member where
  | single (c : Char)
  /-- All characters from `a` to `b`. -/
  | range (a b : Char)
  deriving DecidableEq, Repr

/-- One item of a glob. -/
inductive Token where
  /-- The character itself. -/
  | char (c : Char)
  /-- `?`: any one character but `/`. -/
  | any
  /-- `*`: any run of characters but `/`. -/
  | run
  /-- `**`: any number of whole pieces. -/
  | pieces
  /-- `[..]`: one character of a set, but not `/`. -/
  | inside (ms : List Member)
  /-- `[!..]`: one character outside a set, but not `/`. -/
  | outside (ms : List Member)
  deriving DecidableEq, Repr

/-! ### Reading -/

/-- Too many stars in a row. -/
def tooManyStars : Text :=
  "wildcards are either regular `*` or recursive `**`".toList

/-- A `**` next to something else in its piece. -/
def starsInPiece : Text :=
  "recursive wildcards must form a single path component".toList

/-- A `[` without the `]` that ends its set. -/
def openSet : Text := "invalid range pattern".toList

/-- The members of a set, from the characters between its brackets.  A `-` between two
characters makes a range of them. -/
def members : Text → List Member
  | a :: '-' :: b :: r => .range a b :: members r
  | a :: r => .single a :: members r
  | [] => []

/-- Where a reader stands. -/
inductive Mode where
  /-- Between items; `fresh` says that a new piece starts here. -/
  | item (fresh : Bool)
  /-- In a set, of which the given characters were read, last one first. -/
  | set (negated : Bool) (chars : Text)

/-- Put an item in front. -/
def cons (t : Token) : Except Text (List Token) → Except Text (List Token)
  | .ok ts => .ok (t :: ts)
  | .error e => .error e

/-- The items of a text, from a given position on. -/
def read : Mode → Text → Except Text (List Token)
  | .item _, [] => .ok []
  | .item _, '*' :: '*' :: '*' :: _ => .error tooManyStars
  | .item fresh, '*' :: '*' :: '/' :: r =>
    if fresh then cons .pieces (read (.item true) r) else .error starsInPiece
  | .item fresh, ['*', '*'] => if fresh then .ok [.pieces] else .error starsInPiece
  | .item _, '*' :: '*' :: _ => .error starsInPiece
  | .item _, '*' :: r => cons .run (read (.item false) r)
  | .item _, '?' :: r => cons .any (read (.item false) r)
  | .item _, '[' :: '!' :: c :: r => read (.set true [c]) r
  | .item _, '[' :: '!' :: [] => .error openSet
  | .item _, '[' :: c :: r => read (.set false [c]) r
  | .item _, '[' :: [] => .error openSet
  | .item _, c :: r => cons (.char c) (read (.item (c = '/')) r)
  | .set _ _, [] => .error openSet
  | .set negated chars, c :: r =>
    if c = ']' then
      let ms := members chars.reverse
      cons (if negated then .outside ms else .inside ms) (read (.item false) r)
    else read (.set negated (c :: chars)) r

/-- The glob that a text spells, or the reason why it spells none. -/
def ofText (t : Text) : Except Text (List Token) := read (.item true) t

/-! ### Meaning -/

/-- The character belongs to the set. -/
def Member.has (c : Char) : Member → Bool
  | .single a => c = a
  | .range a b => a ≤ c && c ≤ b

/-- The character belongs to one of the sets. -/
def anyHas (ms : List Member) (c : Char) : Bool := ms.any (Member.has c)

/-- The first character of a text is one of `p`, and `k` accepts what is left after it. -/
def afterOne (p : Char → Bool) (k : Text → Bool) : Text → Bool
  | [] => false
  | c :: s => p c && k s

/-- `k` accepts what is left of a text after a run of characters other than `/`. -/
def afterRun (k : Text → Bool) : Text → Bool
  | [] => k []
  | c :: s => k (c :: s) || (c != '/' && afterRun k s)

/-- `k` accepts what is left of a text after the end of some piece. -/
def afterSlash (k : Text → Bool) : Text → Bool
  | [] => k []
  | c :: s => (c == '/' && k s) || afterSlash k s

/-- The items cover the whole text. -/
def covers : List Token → Text → Bool
  | [] => List.isEmpty
  | .char a :: ts => afterOne (· == a) (covers ts)
  | .any :: ts => afterOne (· != '/') (covers ts)
  | .inside ms :: ts => afterOne (fun c => c != '/' && anyHas ms c) (covers ts)
  | .outside ms :: ts => afterOne (fun c => c != '/' && !anyHas ms c) (covers ts)
  | .run :: ts => afterRun (covers ts)
  | .pieces :: ts => fun s => covers ts s || afterSlash (covers ts) s

end Glob

end FileRoutes
