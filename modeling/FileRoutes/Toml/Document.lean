import FileRoutes.Toml.Scalar

/-!
# TOML documents

`Toml.document?` reads a whole document (TOML 1.0) into the entries of its top table.  Values may
be nested up to `maxNesting` deep, and keys may have up to `maxNesting` parts.
-/

namespace FileRoutes

namespace Toml

/-- How deep values may be nested, and how many parts a key may have. -/
def maxNesting : Nat := 79

/-! ### Keys -/

/-- Characters of keys without quotes. -/
def isBareKeyChar (c : Char) : Bool := c.isAlphanum || c = '_' || c = '-'

/-- One part of a key. -/
def keyPart? : Text → Option (Text × Text)
  | '"' :: r => basicString? r
  | '\'' :: r => literalString? r
  | t =>
    let k := t.takeWhile isBareKeyChar
    if k = [] then none else some (k, t.dropWhile isBareKeyChar)

/-- A key of at most `n` parts with dots between them, and the spaces around it. -/
def key? : Nat → Text → Option (List Text × Text)
  | 0, _ => none
  | n + 1, t =>
    match keyPart? (dropSpaces t) with
    | none => none
    | some (k, r) =>
      match dropSpaces r with
      | '.' :: r => (key? n r).map fun (ks, r) => (k :: ks, r)
      | r => some ([k], r)

/-! ### Comments and blank lines -/

/-- The text after a comment or nothing, up to the line end.  Control characters may not stand in
comments. -/
def dropComment? : Text → Option Text
  | '#' :: r =>
    let r := r.dropWhile isPrintable
    if r = [] ∨ (lineEnd? r).isSome then some r else none
  | t => some t

/-- The text after the rest of a line that holds nothing more. -/
def restOfLine? (t : Text) : Option Text :=
  match dropComment? (dropSpaces t) with
  | some [] => some []
  | some r => lineEnd? r
  | none => none

/-- The text after spaces, line ends and comments.  `inComment` says that the text goes on in a
comment. -/
def dropBlanks? (inComment : Bool) : Text → Option Text
  | [] => some []
  | '\n' :: r => dropBlanks? false r
  | '\r' :: '\n' :: r => dropBlanks? false r
  | c :: r =>
    if inComment then (if isPrintable c then dropBlanks? true r else none)
    else if isSpace c then dropBlanks? false r
    else if c = '#' then dropBlanks? true r
    else some (c :: r)

/-! ### Values -/

/-- The values of an array after its opening bracket, each read by `value`. -/
def items? (value : Text → Option (Value × Text)) (t : Text) : Option (List Value × Text) :=
  match dropBlanks? false t with
  | none => none
  | some (']' :: r) => some ([], r)
  | some s =>
    match value s with
    | none => none
    | some (v, r) =>
      match dropBlanks? false r with
      | some (',' :: r) =>
        if r.length < t.length then (items? value r).map fun (vs, r) => (v :: vs, r) else none
      | some (']' :: r) => some ([v], r)
      | _ => none
termination_by t.length

/-- A key with its value. -/
def pair? (value : Text → Option (Value × Text)) (t : Text) :
    Option ((List Text × Text × Value) × Text) :=
  match key? maxNesting t with
  | some (ks, '=' :: r) =>
    match value (dropSpaces r), ks.getLast? with
    | some (v, r), some k => some ((ks.dropLast, k, v), r)
    | _, _ => none
  | _ => none

/-- The pairs of an inline table after its opening brace, added to those before them. -/
def pairs? (value : Text → Option (Value × Text)) (es : Entries) (t : Text) :
    Option (Entries × Text) :=
  match pair? value t with
  | none => none
  | some ((path, k, v), r) =>
    match addInlinePair path k v es, dropSpaces r with
    | some es, '\x7d' :: r => some (es, r)
    | some es, ',' :: r => if r.length < t.length then pairs? value es r else none
    | _, _ => none
termination_by t.length

/-- An inline table after its opening brace. -/
def inlineTable? (value : Text → Option (Value × Text)) (t : Text) : Option (Value × Text) :=
  match dropSpaces t with
  | '\x7d' :: r => some (.table .inline [], r)
  | _ => (pairs? value [] t).map fun (es, r) => (.table .inline es, r)

/-- A value in which others are nested at most `n` deep. -/
def value? : Nat → Text → Option (Value × Text)
  | n + 1, '[' :: r => (items? (value? n) r).map fun (vs, r) => (.array vs, r)
  | n + 1, '\x7b' :: r => inlineTable? (value? n) r
  | _, t => scalar? t

/-! ### Lines -/

/-- A header: its key, whether it stands in double brackets, and what follows it. -/
def header? : Text → Option (List Text × Bool × Text)
  | '[' :: '[' :: r =>
    match key? maxNesting r with
    | some (ks, ']' :: ']' :: r) => some (ks, true, r)
    | _ => none
  | '[' :: r =>
    match key? maxNesting r with
    | some (ks, ']' :: r) => some (ks, false, r)
    | _ => none
  | _ => none

/-- One line, which is not empty, added to a document. -/
def line? (d : Draft) (t : Text) : Option (Draft × Text) :=
  match t with
  | '[' :: _ => do
    let (ks, many, r) ← header? t
    let r ← restOfLine? r
    let d ← d.startTable ks many
    pure (d, r)
  | '#' :: _ => (restOfLine? t).map fun r => (d, r)
  | '\n' :: r => some (d, r)
  | '\r' :: '\n' :: r => some (d, r)
  | _ => do
    let ((path, k, v), r) ← pair? (value? maxNesting) t
    let r ← restOfLine? r
    let d ← d.add path k v
    pure (d, r)

/-- All lines of a text added to a document. -/
def lines? (d : Draft) (t : Text) : Option Draft :=
  match dropSpaces t with
  | [] => some d
  | c :: s =>
    match line? d (c :: s) with
    | none => none
    | some (d, r) => if r.length < t.length then lines? d r else none
termination_by t.length

/-- The entries of the document that a text spells.  A byte order mark may stand in front. -/
def document? (t : Text) : Option Entries :=
  let t := match t with
    | '\uFEFF' :: r => r
    | t => t
  match lines? .empty t with
  | some d => d.close
  | none => none

end Toml

end FileRoutes
