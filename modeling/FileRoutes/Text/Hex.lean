import FileRoutes.Text.Split

/-!
# Hexadecimal digits
-/

namespace FileRoutes

namespace Hex

/-- The digit for `n`, in lower case. -/
def lower (n : Nat) : Char := Char.ofNat (if n < 10 then 0x30 + n else 0x57 + n)

/-- The digit for `n`, in upper case. -/
def upper (n : Nat) : Char := Char.ofNat (if n < 10 then 0x30 + n else 0x37 + n)

/-- The value of a digit, in either case. -/
def value? (c : Char) : Option Nat :=
  let n := c.toNat
  if 0x30 ≤ n ∧ n ≤ 0x39 then some (n - 0x30)
  else if 0x41 ≤ n ∧ n ≤ 0x46 then some (n - 0x37)
  else if 0x61 ≤ n ∧ n ≤ 0x66 then some (n - 0x57)
  else none

/-- A number in lower-case digits, with no leading zeros. -/
def digits (n : Nat) : Text :=
  if n < 16 then [lower n] else digits (n / 16) ++ [lower (n % 16)]

/-- The number that some digits stand for, read after the digits of `acc`. -/
def ofDigits? (acc : Nat) : Text → Option Nat
  | [] => some acc
  | c :: r =>
    match value? c with
    | some v => ofDigits? (acc * 16 + v) r
    | none => none

end Hex

end FileRoutes
