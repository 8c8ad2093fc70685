import FileRoutes.Text.Split

/-!
# Binary floating-point numbers

A number of the 64-bit format is a sign with `mantissa * 2 ^ exponent`, or infinite, or no
number.  `Binary64.ofDecimal` rounds a decimal number to the nearest one, ties to even.
-/

namespace FileRoutes

/-- A number of the 64-bit binary format. -/
inductive Binary64 where
  /-- `mantissa * 2 ^ exponent`, with a minus sign if `negative`. -/
  | finite (negative : Bool) (mantissa : Nat) (exponent : Int)
  | infinite (negative : Bool)
  | notANumber
  deriving DecidableEq, Repr

namespace Binary64

/-- The least exponent. -/
def leastExponent : Int := -1074

/-- The greatest exponent. -/
def greatestExponent : Int := 971

/-- The quotient `num * 2 ^ shift / den` to the nearest integer, ties to even. -/
def roundShifted (num den : Nat) (shift : Int) : Nat :=
  let n := num * Nat.pow 2 shift.toNat
  let d := den * Nat.pow 2 (-shift).toNat
  let r := n % d
  let up := d < 2 * r || (d = 2 * r && n / d % 2 = 1)
  if up then n / d + 1 else n / d

/-- The greatest `l` with `2 ^ l ≤ num / den`. -/
def floorLog2 (num den : Nat) : Int :=
  let l : Int := (Nat.log2 num : Int) - Nat.log2 den
  if num * Nat.pow 2 (-l).toNat < den * Nat.pow 2 l.toNat then l - 1 else l

/-- The number nearest to `num / den`, ties to even. -/
def ofRatio (negative : Bool) (num den : Nat) : Binary64 :=
  if num = 0 then .finite negative 0 0
  else
    let q := max leastExponent (floorLog2 num den - 52)
    let m := roundShifted num den (-q)
    let (m, q) := if m = Nat.pow 2 53 then (Nat.pow 2 52, q + 1) else (m, q)
    if greatestExponent < q then .infinite negative else .finite negative m q

/-- The number nearest to `digits * 10 ^ exponent`.  Exponents far outside the format's range
are settled without computing powers. -/
def ofDecimal (negative : Bool) (digits : Nat) (exponent : Int) : Binary64 :=
  let size : Int := (Nat.toDigits 10 digits).length + exponent
  if digits = 0 ∨ size < -400 then .finite negative 0 0
  else if 400 < size then .infinite negative
  else ofRatio negative (digits * Nat.pow 10 exponent.toNat) (Nat.pow 10 (-exponent).toNat)

end Binary64

end FileRoutes
