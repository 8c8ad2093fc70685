import FileRoutes.Decimal.Binary64

/-!
# Shortest decimal text

A floating-point number is written with the fewest digits that read back as the same number,
and of several such decimals as the nearest; of two that are equally near, as the one further
from zero.  The search is exact: for each count of digits it
tests the two neighbours of the value on the grid of decimals with that many digits.
-/

namespace FileRoutes

namespace Shortest

/-- A positive binary number as a fraction, with the ends of the interval of all numbers that
round to it.  All four are over the same denominator. -/
structure Interval where
  value : Nat
  low : Nat
  high : Nat
  denominator : Nat
  /-- The ends belong to the interval. -/
  closed : Bool

/-- The interval of `m * 2 ^ q`.  Below a power of two the numbers lie closer together. -/
def interval (m : Nat) (q : Int) : Interval :=
  let up := Nat.pow 2 q.toNat
  let gap := if m = Nat.pow 2 52 ∧ Binary64.leastExponent < q then 1 else 2
  ⟨4 * m * up, (4 * m - gap) * up, (4 * m + 2) * up, 4 * Nat.pow 2 (-q).toNat, m % 2 = 0⟩

/-- `d * 10 ^ p` lies in the interval. -/
def Interval.has (i : Interval) (d : Nat) (p : Int) : Bool :=
  let x := d * Nat.pow 10 p.toNat * i.denominator
  let scale := Nat.pow 10 (-p).toNat
  if i.closed then i.low * scale ≤ x && x ≤ i.high * scale
  else i.low * scale < x && x < i.high * scale

/-- The greatest `k` with `10 ^ k` not above the value. -/
def Interval.leadingPlace (i : Interval) : Int :=
  ((Nat.toDigits 10 (i.value * Nat.pow 10 400 / i.denominator)).length : Int) - 401

/-- The decimal `d * 10 ^ p` with `n` digits.  Rounding up may lead to `10 ^ n`, which has one
digit too many and is written one place higher. -/
def ofDigits (n d : Nat) (p : Int) : Nat × Int :=
  if d = Nat.pow 10 n then (Nat.pow 10 (n - 1), p + 1) else (d, p)

/-- The decimal with `n` digits that is nearest to the value, if it rounds to it. -/
def nearest? (i : Interval) (n : Nat) : Option (Nat × Int) :=
  let p := i.leadingPlace - n + 1
  let num := i.value * Nat.pow 10 (-p).toNat
  let den := i.denominator * Nat.pow 10 p.toNat
  let below := num / den
  let first := if 2 * (num % den) < den then below else below + 1
  let second := if first = below then below + 1 else below
  if i.has first p then some (ofDigits n first p)
  else if i.has second p then some (ofDigits n second p)
  else none

/-- The shortest decimal `d * 10 ^ p` that rounds to `m * 2 ^ q`.  Seventeen digits always
suffice. -/
def decimal (m : Nat) (q : Int) : Nat × Int :=
  let i := interval m q
  ((List.range 17).findSome? fun n => nearest? i (n + 1)).getD (m, q)

/-- A decimal without exponent, with a point and at least one digit on both sides of it. -/
def positional (d : Nat) (p : Int) : Text :=
  let ds := Nat.toDigits 10 d
  if 0 ≤ p then ds ++ List.replicate p.toNat '0' ++ ['.', '0']
  else
    let places := (-p).toNat
    let ds := List.replicate (places + 1 - ds.length) '0' ++ ds
    ds.take (ds.length - places) ++ '.' :: ds.drop (ds.length - places)

end Shortest

/-- The text of a floating-point number. -/
def Binary64.text : Binary64 → Text
  | .finite negative m q =>
    let sign := if negative then ['-'] else []
    if m = 0 then sign ++ "0.0".toList
    else
      let (d, p) := Shortest.decimal m q
      sign ++ Shortest.positional d p
  | .infinite negative => (if negative then "-inf" else "inf").toList
  | .notANumber => "NaN".toList

end FileRoutes
