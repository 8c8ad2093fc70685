import FileRoutes.Text.Split

/-!
# UTF-8

`Utf8.encode` writes a text as bytes.  Reading goes byte by byte with a small machine
(`Utf8.State`): every byte either completes a character, is one more byte of a character, or
shows that the bytes read so far belong to no character.  Such an ill-formed run is as long as
the longest beginning of a character that the bytes agree with.

* `Utf8.decode?` refuses ill-formed runs;
* `Utf8.decodeLossy` reads each ill-formed run as one replacement character.
-/

namespace FileRoutes

namespace Utf8

/-- The bytes of a text. -/
def encode (t : Text) : Bytes := t.flatMap String.utf8EncodeChar

/-- Where a reader stands between two bytes. -/
inductive State where
  /-- Between characters. -/
  | start
  /-- Inside a character: `more` bytes are still to come after the next one, the bits read so
  far are `value`, and the next byte lies between `low` and `high`. -/
  | inside (more value low high : Nat)
  deriving DecidableEq, Repr

/-- What the first byte of a character announces, if it can be one: the bytes after the second,
the bits it carries, and the range of the second byte.  The ranges keep out overlong forms,
surrogates and numbers above `0x10FFFF`. -/
def lead (b : Nat) : Option State :=
  if b < 0xC2 then none
  else if b ≤ 0xDF then some (.inside 0 (b - 0xC0) 0x80 0xBF)
  else if b = 0xE0 then some (.inside 1 0 0xA0 0xBF)
  else if b = 0xED then some (.inside 1 13 0x80 0x9F)
  else if b ≤ 0xEF then some (.inside 1 (b - 0xE0) 0x80 0xBF)
  else if b = 0xF0 then some (.inside 2 0 0x90 0xBF)
  else if b ≤ 0xF3 then some (.inside 2 (b - 0xF0) 0x80 0xBF)
  else if b = 0xF4 then some (.inside 2 4 0x80 0x8F)
  else none

/-- One byte between characters: what it completes, and the state after it. -/
def stepStart (b : UInt8) : List (Option Char) × State :=
  if b.toNat < 0x80 then ([some (Char.ofNat b.toNat)], .start)
  else
    match lead b.toNat with
    | some s => ([], s)
    | none => ([none], .start)

/-- One byte anywhere.  A byte that does not fit ends an ill-formed run and is then read as the
first byte of what follows. -/
def step : State → UInt8 → List (Option Char) × State
  | .start, b => stepStart b
  | .inside more value low high, b =>
    if low ≤ b.toNat ∧ b.toNat ≤ high then
      let value := value * 64 + (b.toNat - 0x80)
      match more with
      | 0 => ([some (Char.ofNat value)], .start)
      | more + 1 => ([], .inside more value 0x80 0xBF)
    else
      let r := stepStart b
      (none :: r.1, r.2)

/-- The characters read from `bs`, with `none` for each ill-formed run. -/
def readings : State → Bytes → List (Option Char)
  | .start, [] => []
  | .inside .., [] => [none]
  | s, b :: bs => (step s b).1 ++ readings (step s b).2 bs

/-- The text whose encoding is `bs`, if there is one. -/
def decode? (bs : Bytes) : Option Text := (readings .start bs).mapM id

/-- The text read from `bs`, with U+FFFD for each ill-formed run. -/
def decodeLossy (bs : Bytes) : Text :=
  (readings .start bs).map fun r => r.getD '\uFFFD'

end Utf8

end FileRoutes
