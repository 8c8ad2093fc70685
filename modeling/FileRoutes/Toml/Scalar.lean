import FileRoutes.Text.Hex
import FileRoutes.Toml.Value

/-!
# TOML scalars

Readers for single values: strings, numbers, dates and times, and truth values.  A reader takes
a value from the front of a text and returns what follows it, or nothing if the front is no
such value.
-/

namespace FileRoutes

namespace Toml

/-! ### Characters -/

/-- A space or a tab. -/
def isSpace (c : Char) : Bool := c = ' ' || c = '\t'

/-- Characters that may stand in comments: all but control characters, tabs allowed. -/
def isPrintable (c : Char) : Bool := c = '\t' || (0x20 ≤ c.toNat && c.toNat != 0x7F)

/-- The text after its spaces. -/
def dropSpaces (t : Text) : Text := t.dropWhile isSpace

/-- The text after a line end. -/
def lineEnd? : Text → Option Text
  | '\n' :: r => some r
  | '\r' :: '\n' :: r => some r
  | _ => none

/-- Put a character in front of what was read. -/
def push (c : Char) (r : Option (Text × Text)) : Option (Text × Text) :=
  r.map fun r => (c :: r.1, r.2)

/-! ### Strings -/

/-- The escapes of one letter. -/
def escape? : Char → Option Char
  | 'b' => some '\x08'
  | 't' => some '\t'
  | 'n' => some '\n'
  | 'f' => some '\x0c'
  | 'r' => some '\r'
  | '"' => some '"'
  | '\\' => some '\\'
  | _ => none

/-- The character whose code point some digits spell. -/
def codePoint? (ds : Text) : Option Char :=
  match Hex.ofDigits? 0 ds with
  | some n => if n < 0xD800 ∨ (0xE000 ≤ n ∧ n < 0x110000) then some (Char.ofNat n) else none
  | none => none

/-- Put the character that an escape spells in front of what was read. -/
def pushEscape (c? : Option Char) (r : Option (Text × Text)) : Option (Text × Text) :=
  match c? with
  | some c => push c r
  | none => none

/-- A string in double quotes, after the opening one. -/
def basicString? : Text → Option (Text × Text)
  | [] => none
  | '"' :: r => some ([], r)
  | '\\' :: 'u' :: a :: b :: c :: d :: r => pushEscape (codePoint? [a, b, c, d]) (basicString? r)
  | '\\' :: 'U' :: a :: b :: c :: d :: e :: f :: g :: h :: r =>
    pushEscape (codePoint? [a, b, c, d, e, f, g, h]) (basicString? r)
  | '\\' :: c :: r => pushEscape (escape? c) (basicString? r)
  | c :: r => if isPrintable c && c != '\\' then push c (basicString? r) else none

/-- A string in single quotes, after the opening one. -/
def literalString? : Text → Option (Text × Text)
  | [] => none
  | '\'' :: r => some ([], r)
  | c :: r => if isPrintable c then push c (literalString? r) else none

/-- Nothing but spaces stands in front of the next line end. -/
def endsLine (t : Text) : Bool := (lineEnd? (dropSpaces t)).isSome

/-- A string in three double quotes, after the opening ones.  `trimming` skips the white space
after a backslash at the end of a line.  Up to two quotes may stand right before the closing
ones. -/
def basicLines? (trimming : Bool) : Text → Option (Text × Text)
  | [] => none
  | '"' :: '"' :: '"' :: '"' :: '"' :: r => some (['"', '"'], r)
  | '"' :: '"' :: '"' :: '"' :: r => some (['"'], r)
  | '"' :: '"' :: '"' :: r => some ([], r)
  | '\r' :: '\n' :: r =>
    if trimming then basicLines? true r else push '\n' (basicLines? false r)
  | '\\' :: 'u' :: a :: b :: c :: d :: r =>
    pushEscape (codePoint? [a, b, c, d]) (basicLines? false r)
  | '\\' :: 'U' :: a :: b :: c :: d :: e :: f :: g :: h :: r =>
    pushEscape (codePoint? [a, b, c, d, e, f, g, h]) (basicLines? false r)
  | '\\' :: c :: r =>
    if endsLine (c :: r) then basicLines? true (c :: r)
    else pushEscape (escape? c) (basicLines? false r)
  | c :: r =>
    if trimming && (isSpace c || c = '\n') then basicLines? true r
    else if (isPrintable c && c != '\\') || c = '\n' then push c (basicLines? false r)
    else none

/-- A string in three single quotes, after the opening ones. -/
def literalLines? : Text → Option (Text × Text)
  | [] => none
  | '\'' :: '\'' :: '\'' :: '\'' :: '\'' :: r => some (['\'', '\''], r)
  | '\'' :: '\'' :: '\'' :: '\'' :: r => some (['\''], r)
  | '\'' :: '\'' :: '\'' :: r => some ([], r)
  | '\r' :: '\n' :: r => push '\n' (literalLines? r)
  | c :: r => if isPrintable c || c = '\n' then push c (literalLines? r) else none

/-- The text after a line end, if it starts with one. -/
def dropLineEnd (t : Text) : Text := (lineEnd? t).getD t

/-- A string on one line. -/
def lineString? : Text → Option (Text × Text)
  | '"' :: r => basicString? r
  | '\'' :: r => literalString? r
  | _ => none

/-- Any string. -/
def string? : Text → Option (Text × Text)
  | '"' :: '"' :: '"' :: r => basicLines? false (dropLineEnd r)
  | '\'' :: '\'' :: '\'' :: r => literalLines? (dropLineEnd r)
  | t => lineString? t

/-! ### Numbers -/

/-- Digits, with underscores between two of them. -/
def moreDigits (isDigit : Char → Bool) : Text → Text × Text
  | [] => ([], [])
  | '_' :: c :: r =>
    if isDigit c then
      let (ds, r') := moreDigits isDigit r
      (c :: ds, r')
    else ([], '_' :: c :: r)
  | c :: r =>
    if isDigit c then
      let (ds, r') := moreDigits isDigit r
      (c :: ds, r')
    else ([], c :: r)

/-- One or more digits, with underscores between two of them. -/
def digits? (isDigit : Char → Bool) : Text → Option (Text × Text)
  | c :: r =>
    if isDigit c then
      let (ds, r') := moreDigits isDigit r
      some (c :: ds, r')
    else none
  | [] => none

/-- The digits of a whole number: no zero in front of others. -/
def wholeDigits? : Text → Option (Text × Text)
  | '0' :: r => some (['0'], r)
  | t => digits? Char.isDigit t

/-- The number that some digits spell. -/
def ofDigits (base : Nat) (ds : Text) : Nat :=
  ds.foldl (fun n c => n * base + (Hex.value? c).getD 0) 0

/-- A sign, if there is one: whether it is a minus, and what follows it. -/
def sign : Text → Bool × Text
  | '-' :: r => (true, r)
  | '+' :: r => (false, r)
  | t => (false, t)

/-- An integer of 64 bits, one of them for the sign. -/
def integer? (n : Int) : Option Value :=
  let bound : Int := Nat.pow 2 63
  if -bound ≤ n ∧ n < bound then some (.integer n) else none

/-- A number in another base, after its mark. -/
def based? (base : Nat) (isDigit : Char → Bool) (t : Text) : Option (Value × Text) :=
  match digits? isDigit t with
  | some (ds, r) => (integer? (ofDigits base ds)).map fun v => (v, r)
  | none => none

/-- A floating-point number that is not too great. -/
def float? (x : Binary64) : Option Value :=
  if x = .infinite false then none else some (.float x)

/-- An exponent, if one stands at the front: its value, and what follows it. -/
def exponent? : Text → Option (Int × Text)
  | c :: r =>
    if c = 'e' || c = 'E' then
      let (negative, r) := sign r
      (digits? Char.isDigit r).map fun (ds, r') =>
        let n : Int := ofDigits 10 ds
        (if negative then -n else n, r')
    else none
  | [] => none

/-- A decimal number: an integer, unless a point or an exponent follows. -/
def decimal? (negative : Bool) (t : Text) : Option (Value × Text) :=
  match wholeDigits? t with
  | none => none
  | some (whole, '.' :: r) =>
    match digits? Char.isDigit r with
    | none => none
    | some (fraction, r) =>
      let (e, r) := (exponent? r).getD (0, r)
      (float? (.ofDecimal negative (ofDigits 10 (whole ++ fraction)) (e - fraction.length))).map
        fun v => (v, r)
  | some (whole, r) =>
    match exponent? r with
    | some (e, r) =>
      (float? (.ofDecimal negative (ofDigits 10 whole) e)).map fun v => (v, r)
    | none =>
      let n : Int := ofDigits 10 whole
      (integer? (if negative then -n else n)).map fun v => (v, r)

/-- The digits of base 2. -/
def isBinaryDigit (c : Char) : Bool := c = '0' || c = '1'

/-- The digits of base 8. -/
def isOctalDigit (c : Char) : Bool := '0' ≤ c && c ≤ '7'

/-- The digits of base 16. -/
def isHexDigit (c : Char) : Bool := (Hex.value? c).isSome

/-- A number. -/
def number? : Text → Option (Value × Text)
  | '0' :: 'x' :: r => based? 16 isHexDigit r
  | '0' :: 'o' :: r => based? 8 isOctalDigit r
  | '0' :: 'b' :: r => based? 2 isBinaryDigit r
  | t =>
    match sign t with
    | (negative, 'i' :: 'n' :: 'f' :: r) => some (.float (.infinite negative), r)
    | (_, 'n' :: 'a' :: 'n' :: r) => some (.float .notANumber, r)
    | (negative, r) => decimal? negative r

/-! ### Dates and times -/

/-- Two digits whose value lies between `low` and `high`. -/
def twoDigits? (low high : Nat) : Text → Option (Nat × Text)
  | a :: b :: r =>
    let n := ofDigits 10 [a, b]
    if a.isDigit && b.isDigit && low ≤ n && n ≤ high then some (n, r) else none
  | _ => none

/-- The text after a character. -/
def after? (c : Char) : Text → Option Text
  | x :: r => if x = c then some r else none
  | [] => none

/-- The number of days of a month. -/
def daysIn (year month : Nat) : Nat :=
  if month = 2 then
    if year % 4 = 0 && (year % 100 != 0 || year % 400 = 0) then 29 else 28
  else if month = 4 || month = 6 || month = 9 || month = 11 then 30
  else 31

/-- The text after a date. -/
def date? (t : Text) : Option Text := do
  let (century, r) ← twoDigits? 0 99 t
  let (year, r) ← twoDigits? 0 99 r
  let r ← after? '-' r
  let (month, r) ← twoDigits? 1 12 r
  let r ← after? '-' r
  let (_, r) ← twoDigits? 1 (daysIn (century * 100 + year) month) r
  pure r

/-- The text after the fraction of a second, if there is one. -/
def dropFraction : Text → Text
  | '.' :: c :: r => if c.isDigit then r.dropWhile Char.isDigit else '.' :: c :: r
  | t => t

/-- The text after a time of day. -/
def time? (t : Text) : Option Text := do
  let (_, r) ← twoDigits? 0 23 t
  let r ← after? ':' r
  let (_, r) ← twoDigits? 0 59 r
  let r ← after? ':' r
  let (_, r) ← twoDigits? 0 60 r
  pure (dropFraction r)

/-- The text after an offset from universal time. -/
def offset? : Text → Option Text
  | 'Z' :: r => some r
  | 'z' :: r => some r
  | c :: r => do
    if c = '+' || c = '-' then
      let (_, r) ← twoDigits? 0 23 r
      let r ← after? ':' r
      let (_, r) ← twoDigits? 0 59 r
      pure r
    else none
  | [] => none

/-- The text after a date, a time, or a date with a time. -/
def datetime? (t : Text) : Option Text :=
  match date? t with
  | none => time? t
  | some (c :: r) =>
    if c = 'T' || c = 't' || c = ' ' then
      match time? r with
      | some r => some ((offset? r).getD r)
      | none => some (c :: r)
    else some (c :: r)
  | some [] => some []

/-! ### Scalars -/

/-- Any value that does not hold other values. -/
def scalar? : Text → Option (Value × Text)
  | 't' :: 'r' :: 'u' :: 'e' :: r => some (.boolean true, r)
  | 'f' :: 'a' :: 'l' :: 's' :: 'e' :: r => some (.boolean false, r)
  | '"' :: r => (string? ('"' :: r)).map fun (s, r) => (.text s, r)
  | '\'' :: r => (string? ('\'' :: r)).map fun (s, r) => (.text s, r)
  | t =>
    match datetime? t with
    | some r => some (.datetime, r)
    | none => number? t

end Toml

end FileRoutes
