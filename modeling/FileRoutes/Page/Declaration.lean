import FileRoutes.Text.Blank
import FileRoutes.Text.Word

/-!
# Route declarations

A page declares a route when its source text calls one of two functions.  A call is the
function's name at the start of a word, an optional list of type arguments, and an opening
parenthesis, with white space between them.

* `Declaration.declares` looks for a call anywhere in a text;
* `Declaration.Call` says what a call is.

A type-argument list ends at the first `>` after its `<`.
-/

namespace FileRoutes

namespace Declaration

/-- The functions that declare a route. -/
def callees : List Text := ["defineRoute".toList, "createRoute".toList]

/-- The text without the white space at its front. -/
def dropBlank (t : Text) : Text := t.dropWhile isBlank

/-- An opening parenthesis stands at the front, perhaps after white space. -/
def opensArguments (t : Text) : Bool := (dropBlank t).head? = some '('

/-- The rest of a call stands at the front, after its function's name. -/
def continuesCall (t : Text) : Bool :=
  match dropBlank t with
  | '(' :: _ => true
  | '<' :: r =>
    match r.dropWhile (· ≠ '>') with
    | _ :: r' => opensArguments r'
    | [] => false
  | _ => false

/-- A call stands at the front. -/
def startsCall (t : Text) : Bool :=
  callees.any fun name => name.isPrefixOf t && continuesCall (t.drop name.length)

/-- A call stands somewhere in a text; `afterWord` says whether a word character precedes it. -/
def declaresAfter (afterWord : Bool) : Text → Bool
  | [] => false
  | c :: t => (!afterWord && startsCall (c :: t)) || declaresAfter (isWordChar c) t

/-- The text holds a call that declares a route. -/
def declares (t : Text) : Bool := declaresAfter false t

/-! ### What a call is -/

/-- All characters are white space. -/
def Blank (t : Text) : Prop := ∀ c ∈ t, isBlank c = true

/-- A text that can stand before a word: it does not end inside one. -/
def EndsOutsideWord (u : Text) : Prop := ∀ c, u.getLast? = some c → isWordChar c = false

/-- Nothing, or a list of type arguments with the white space after it. -/
inductive Generics : Text → Prop where
  | none : Generics []
  | list (ts w : Text) : '>' ∉ ts → Blank w → Generics ('<' :: (ts ++ '>' :: w))

/-- A call up to its opening parenthesis. -/
inductive Call : Text → Prop where
  | mk (name w g : Text) : name ∈ callees → Blank w → Generics g → Call (name ++ w ++ g ++ ['('])

end Declaration

end FileRoutes
