import FileRoutes.Config.Basic
import FileRoutes.Decimal.Shortest
import FileRoutes.Disk.Resolve
import FileRoutes.Text.Shown
import FileRoutes.Toml.Document

/-!
# Reading configurations

A configuration is written as a TOML document.  Keys that are missing have their standard
values, and keys that mean nothing are passed over.  Of several values that do not fit, the
first one in the document counts.

* `Config.ofEntries` takes the settings from the entries of a document;
* `Config.ofText` reads a text, and checks the globs;
* `Config.load` reads a file; a file that is not there, or blank, says nothing.
-/

namespace FileRoutes

namespace Config

/-! ### Kinds of values -/

/-- What a value is, in the words of a message. -/
def kindOf : Toml.Value → Text
  | .text t => "string ".toList ++ Shown.encode t
  | .integer n => "integer `".toList ++ (toString n).toList ++ "`".toList
  | .float x => "floating point `".toList ++ x.text ++ "`".toList
  | .boolean b => "boolean `".toList ++ (if b then "true" else "false").toList ++ "`".toList
  | .array _ | .tables _ => "sequence".toList
  | .datetime | .table .. => "map".toList

/-- The message for a value of the wrong kind. -/
def wrongKind (v : Toml.Value) (expected : String) : Text :=
  "invalid type: ".toList ++ kindOf v ++ ", expected ".toList ++ expected.toList

/-- A path. -/
def readPath : Toml.Value → Except Text Path
  | .text t => .ok (.ofText t)
  | v => .error (wrongKind v "path string")

/-- A list of texts. -/
def readTexts : List Toml.Value → Except Text (List Text)
  | [] => .ok []
  | .text t :: vs =>
    match readTexts vs with
    | .ok ts => .ok (t :: ts)
    | .error e => .error e
  | v :: _ => .error (wrongKind v "a string")

/-- The globs of directories to leave out. -/
def readExclude : Toml.Value → Except Text (List Text)
  | .array vs => readTexts vs
  | .tables ts => readTexts (ts.map fun es => .table .header es)
  | v => .error (wrongKind v "a sequence")

/-- A time in milliseconds. -/
def readMilliseconds : Toml.Value → Except Text Nat
  | .integer n =>
    if 0 ≤ n then .ok n.toNat
    else .error ("invalid value: ".toList ++ kindOf (.integer n) ++ ", expected u64".toList)
  | v => .error (wrongKind v "u64")

/-- The settings of a watcher: a table, or a list of the settings in order. -/
def readWatch : Toml.Value → Except Text Nat
  | .table _ es =>
    match Toml.Entries.get? es "debounce_ms".toList with
    | some v => readMilliseconds v
    | none => .ok standard.debounce
  | .datetime | .array [] | .tables [] => .ok standard.debounce
  | .array (v :: _) => readMilliseconds v
  | .tables (es :: _) => readMilliseconds (.table .header es)
  | v => .error (wrongKind v "struct WatchConfig")

/-- An order by its name. -/
def readOrder (name : Text) : Except Text SortOrder :=
  match SortOrder.ofName? name with
  | some o => .ok o
  | none =>
    .error ("unknown variant `".toList ++ name ++ "`, expected one of ".toList
      ++ Artifact.joinTexts ", ".toList
        (SortOrder.all.map fun o => "`".toList ++ o.name ++ "`".toList))

/-- The value that may follow the name of an order: an empty table or list. -/
def checkEmpty : Toml.Value → Except Text Unit
  | .table _ [] | .array [] => .ok ()
  | .table _ (_ :: _) | .array (_ :: _) => .error "expected empty table".toList
  | .tables _ => .error "expected empty array".toList
  | .text _ => .error "expected table, found string".toList
  | .integer _ => .error "expected table, found integer".toList
  | .float _ => .error "expected table, found float".toList
  | .boolean _ => .error "expected table, found boolean".toList
  | .datetime => .error "expected table, found datetime".toList

/-- An order: its name, or a table with the name as its only key. -/
def readSort : Toml.Value → Except Text SortOrder
  | .text t => readOrder t
  | .table _ [] => .error "wanted exactly 1 element, found 0 elements".toList
  | .table _ [(k, v)] =>
    match readOrder k with
    | .error e => .error e
    | .ok o =>
      match checkEmpty v with
      | .ok () => .ok o
      | .error e => .error e
  | .table .. => .error "wanted exactly 1 element, more than 1 element".toList
  | _ => .error "wanted string or table".toList

/-! ### Documents -/

/-- The settings with the one that a key gives. -/
def set (c : Config) (k : Text) (v : Toml.Value) : Except Text Config :=
  if k = "root_dir".toList then (readPath v).map fun p => { c with root := p }
  else if k = "output_dir".toList then (readPath v).map fun p => { c with out := p }
  else if k = "exclude".toList then (readExclude v).map fun ts => { c with exclude := ts }
  else if k = "sort".toList then (readSort v).map fun o => { c with sort := o }
  else if k = "watch".toList then (readWatch v).map fun n => { c with debounce := n }
  else .ok c

/-- The settings with those that some entries give. -/
def ofEntries (c : Config) : Toml.Entries → Except Text Config
  | [] => .ok c
  | (k, v) :: es =>
    match c.set k v with
    | .ok c => ofEntries c es
    | .error e => .error e

/-- The settings that a text gives.  A blank text gives none. -/
def ofText (t : Text) : Except ConfigFault Config :=
  if t.all isBlank then .ok standard
  else
    match Toml.document? t with
    | none => .error .malformed
    | some es =>
      match ofEntries standard es with
      | .error reason => .error (.unfit reason)
      | .ok c =>
        match compileGlobs c.exclude with
        | .ok _ => .ok c
        | .error g => .error (.badGlob g)

/-- The settings that a file gives.  A file that is not there gives none. -/
def load (d : Disk) (path : Path) : Except Error Config :=
  if d.hasPath path then
    match d.read path with
    | .error f => .error (.config path (.unreadable f))
    | .ok content =>
      match Utf8.decode? content with
      | none => .error (.config path .notText)
      | some t =>
        match ofText t with
        | .ok c => .ok c
        | .error f => .error (.config path f)
  else .ok standard

end Config

end FileRoutes
