import FileRoutes.Decimal.Binary64

/-!
# TOML values and tables

A table remembers how it came into being (`Toml.Origin`), because that decides whether it may
still be extended: a table may be defined once, and tables that dotted keys made cannot be
opened by a header, nor the other way round.

* `Toml.descend` goes down a path of keys, making the tables that are missing;
* `Toml.addPair` adds a key with its value to the table under a header;
* `Toml.addInlinePair` adds one to an inline table;
* `Toml.Draft` is a document in the making.
-/

namespace FileRoutes

namespace Toml

/-- How a table came into being. -/
inductive Origin where
  /-- Its own header, or the document itself. -/
  | header
  /-- A header of a table inside it. -/
  | implied
  /-- A dotted key under a header. -/
  | dotted
  /-- Braces. -/
  | inline
  /-- A dotted key between braces. -/
  | inlineDotted
  deriving DecidableEq, Repr

/-- A value of a document. -/
inductive Value where
  | text (t : Text)
  | integer (n : Int)
  | float (x : Binary64)
  | boolean (b : Bool)
  /-- A date, a time, or both. -/
  | datetime
  | array (vs : List Value)
  | table (o : Origin) (es : List (Text × Value))
  /-- The tables of a header in double brackets. -/
  | tables (ts : List (List (Text × Value)))

/-- Keys with their values, in the order of the document. -/
abbrev Entries := List (Text × Value)

namespace Entries

/-- The value of a key. -/
def get? (es : Entries) (k : Text) : Option Value := (es.find? fun e => e.1 = k).map Prod.snd

/-- Give a key another value, or add it at the end. -/
def put (es : Entries) (k : Text) (v : Value) : Entries :=
  match es with
  | [] => [(k, v)]
  | e :: es => if e.1 = k then (k, v) :: es else e :: put es k v

/-- Take a key away. -/
def erase (es : Entries) (k : Text) : Entries := es.filter fun e => e.1 ≠ k

end Entries

/-- Change the last element of a list, and tell something about it. -/
def changeLast? {α β : Type} (f : α → Option (β × α)) : List α → Option (β × List α)
  | [] => none
  | [x] => (f x).map fun r => (r.1, [r.2])
  | x :: l => (changeLast? f l).map fun r => (r.1, x :: r.2)

/-! ### Descending -/

/-- How dotted keys under a header go down: missing tables are dotted, and tables that have a
header of their own are closed. -/
def enterDotted : Origin → Bool
  | .implied | .dotted => true
  | _ => false

/-- How dotted keys between braces go down. -/
def enterInline : Origin → Bool
  | .inlineDotted => true
  | _ => false

/-- How headers go down: into every table but those in braces. -/
def enterHeader : Origin → Bool
  | .header | .implied | .dotted => true
  | _ => false

/-- Change the table that a path of keys leads to, and tell something about it.  `enter` says
which tables are open, and `made` is the origin of the tables that are missing.  Of the tables
of a header in double brackets the last one counts, if the path may go through headers. -/
def descend {β : Type} (enter : Origin → Bool) (made : Origin)
    (f : Origin → Entries → Option (β × Entries)) :
    List Text → Origin → Entries → Option (β × Entries)
  | [], o, es => f o es
  | k :: ks, _, es =>
    match es.get? k with
    | none =>
      (descend enter made f ks made []).map fun r => (r.1, es ++ [(k, .table made r.2)])
    | some (.table o sub) =>
      if enter o then
        (descend enter made f ks o sub).map fun r => (r.1, es.put k (.table o r.2))
      else none
    | some (.tables ts) =>
      if made = .inlineDotted then none
      else
        (changeLast? (descend enter made f ks .header) ts).map fun r =>
          (r.1, es.put k (.tables r.2))
    | some _ => none

/-- Add a key that is not there yet. -/
def addNew (k : Text) (v : Value) (es : Entries) : Option (Unit × Entries) :=
  match es.get? k with
  | none => some ((), es ++ [(k, v)])
  | some _ => none

/-- Add a key, given with the dotted keys in front of it, to the table under a header.  Dotted
keys add to dotted tables only. -/
def addPair (path : List Text) (k : Text) (v : Value) (es : Entries) : Option Entries :=
  (descend enterDotted .dotted
    (fun o es => if path = [] ∨ o = .dotted then addNew k v es else none)
    path .header es).map Prod.snd

/-- Add a key, given with the dotted keys in front of it, to an inline table. -/
def addInlinePair (path : List Text) (k : Text) (v : Value) (es : Entries) : Option Entries :=
  (descend enterInline .inlineDotted (fun _ es => addNew k v es) path .inline es).map Prod.snd

/-! ### Documents in the making -/

/-- The tables that are complete, and the one that is being filled. -/
structure Draft where
  root : Entries
  current : Entries
  /-- The keys of the header over the current table. -/
  path : List Text
  /-- The header stands in double brackets. -/
  many : Bool

namespace Draft

/-- An empty document. -/
def empty : Draft := ⟨[], [], [], false⟩

/-- Add a key to the current table. -/
def add (d : Draft) (path : List Text) (k : Text) (v : Value) : Option Draft :=
  (addPair path k v d.current).map fun es => { d with current := es }

/-- Put a table in double brackets after the others of its name. -/
def addToTables (k : Text) (t es : Entries) : Option (Unit × Entries) :=
  match es.get? k with
  | none => some ((), es ++ [(k, .tables [t])])
  | some (.tables ts) => some ((), es.put k (.tables (ts ++ [t])))
  | some _ => none

/-- The document with the current table in its place. -/
def close (d : Draft) : Option Entries :=
  match d.path.getLast? with
  | none => some d.current
  | some k =>
    (descend enterHeader .implied
      (fun _ es =>
        if d.many then addToTables k d.current es else addNew k (.table .header d.current) es)
      d.path.dropLast .header d.root).map Prod.snd

/-- Take over the table that other headers implied in the place of a header, if there is one.
Nothing else may stand there. -/
def takeOver (k : Text) (es : Entries) : Option (Entries × Entries) :=
  match es.get? k with
  | none => some ([], es)
  | some (.table .implied sub) => some (sub, es.erase k)
  | some _ => none

/-- Start the table of a header. -/
def startTable (d : Draft) (path : List Text) (many : Bool) : Option Draft :=
  match d.close, path.getLast? with
  | some root, some k =>
    if many then some ⟨root, [], path, true⟩
    else
      (descend enterHeader .implied (fun _ es => takeOver k es) path.dropLast .header root).map
        fun r => ⟨r.2, r.1, path, false⟩
  | _, _ => none

end Draft

end Toml

end FileRoutes
