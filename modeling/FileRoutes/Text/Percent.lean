import FileRoutes.Text.Hex
import FileRoutes.Text.Utf8

/-!
# Percent encoding of one path segment

`Percent.encode` keeps the unreserved characters (letters, digits, `-`, `_`, `.`, `~`) and
writes every other byte of the text's UTF-8 form as `%XX`, in upper case.

Reading is more liberal than writing: `Percent.decode?` takes digits of either case, accepts
encoded unreserved characters, and leaves a `%` that two hexadecimal digits do not follow as
it is.  It fails only if the bytes it arrives at are not UTF-8.
-/

namespace FileRoutes

namespace Percent

/-- The bytes of the characters that are written as themselves. -/
def isUnreserved (b : UInt8) : Bool :=
  let n := b.toNat
  (0x30 ≤ n && n ≤ 0x39) || (0x41 ≤ n && n ≤ 0x5A) || (0x61 ≤ n && n ≤ 0x7A)
    || n == 0x2D || n == 0x2E || n == 0x5F || n == 0x7E

/-- The written form of one byte. -/
def encodeByte (b : UInt8) : Text :=
  if isUnreserved b then [Char.ofNat b.toNat]
  else ['%', Hex.upper (b.toNat / 16), Hex.upper (b.toNat % 16)]

/-- The written form of a text. -/
def encode (t : Text) : Text := (Utf8.encode t).flatMap encodeByte

/-- The value of a byte that is a hexadecimal digit. -/
def digit? (b : UInt8) : Option Nat := Hex.value? (Char.ofNat b.toNat)

/-- The bytes that a written form stands for. -/
def decodeBytes : Bytes → Bytes
  | [] => []
  | 0x25 :: a :: b :: bs =>
    match digit? a, digit? b with
    | some x, some y => UInt8.ofNat (x * 16 + y) :: decodeBytes bs
    | _, _ => 0x25 :: decodeBytes (a :: b :: bs)
  | b :: bs => b :: decodeBytes bs

/-- The text that a written form stands for. -/
def decode? (t : Text) : Option Text := Utf8.decode? (decodeBytes (Utf8.encode t))

end Percent

end FileRoutes
