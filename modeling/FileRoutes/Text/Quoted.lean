import FileRoutes.Text.Hex

/-!
# Quoted literals

A literal is a text between double quotes, by the rules of JSON.

* `Quoted.encode` writes one: quotes, backslashes and control characters are escaped, all other
  characters stand for themselves;
* `Quoted.read?` reads one from the front of a text and returns what follows it.
-/

namespace FileRoutes

namespace Quoted

/-- A character inside a literal. -/
def encodeChar (c : Char) : Text :=
  match c with
  | '"' => ['\\', '"']
  | '\\' => ['\\', '\\']
  | '\x08' => ['\\', 'b']
  | '\x0c' => ['\\', 'f']
  | '\n' => ['\\', 'n']
  | '\r' => ['\\', 'r']
  | '\t' => ['\\', 't']
  | c =>
    if c.toNat < 0x20 then
      ['\\', 'u', '0', '0', Hex.lower (c.toNat / 16), Hex.lower (c.toNat % 16)]
    else [c]

/-- The literal of a text. -/
def encode (t : Text) : Text := '"' :: (t.flatMap encodeChar ++ ['"'])

/-! ### Reading -/

/-- The characters written as a backslash and one letter. -/
def shortEscape? : Char → Option Char
  | '"' => some '"'
  | '\\' => some '\\'
  | '/' => some '/'
  | 'b' => some '\x08'
  | 'f' => some '\x0c'
  | 'n' => some '\n'
  | 'r' => some '\r'
  | 't' => some '\t'
  | _ => none

/-- The character of a four-digit escape.  Halves of surrogate pairs are refused: a character
outside the basic plane stands for itself. -/
def unit? (n : Nat) : Option Char := if n < 0xD800 ∨ 0xE000 ≤ n then some (Char.ofNat n) else none

/-- Put a character in front of the text that was read. -/
def push (c : Char) (r : Option (Text × Text)) : Option (Text × Text) :=
  r.map fun r => (c :: r.1, r.2)

/-- The characters of a literal up to its closing quote, and what follows it. -/
def readBody? : Text → Option (Text × Text)
  | [] => none
  | '"' :: r => some ([], r)
  | '\\' :: 'u' :: a :: b :: c :: d :: r =>
    match (Hex.ofDigits? 0 [a, b, c, d]).bind unit? with
    | some x => push x (readBody? r)
    | none => none
  | '\\' :: c :: r =>
    match shortEscape? c with
    | some x => push x (readBody? r)
    | none => none
  | c :: r => if c.toNat < 0x20 ∨ c = '\\' then none else push c (readBody? r)

/-- The text of the literal at the front, and what follows it. -/
def read? : Text → Option (Text × Text)
  | '"' :: r => readBody? r
  | _ => none

end Quoted

end FileRoutes
