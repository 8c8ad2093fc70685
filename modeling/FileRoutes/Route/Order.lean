import FileRoutes.Route.Record

/-!
# Route orders

Matching takes the first route that fits, so the order of the routes decides between routes
that overlap.  `Record.sortBy` is stable: records that compare equal keep their order.
-/

namespace FileRoutes

namespace Record

variable {M : Type}

/-- By pattern, character by character. -/
def alphabetical (a b : Record M) : Ordering := compare a.pattern b.pattern

/-- Static routes first, then routes with more segments, then those with fewer placeholders,
and last by pattern. -/
def specificity (a b : Record M) : Ordering :=
  (compare a.isDynamic b.isDynamic).then <|
    (compare b.depth a.depth).then <|
      (compare a.params.length b.params.length).then (alphabetical a b)

/-- The records in a given order; equal ones stay as they are. -/
def sortBy (cmp : Record M → Record M → Ordering) (rs : List (Record M)) : List (Record M) :=
  rs.mergeSort fun a b => (cmp a b).isLE

end Record

/-- The orders that a configuration can ask for. -/
inductive SortOrder where
  /-- The order in which the pages were found. -/
  | filesystem
  | alphabetical
  | specificity
  deriving DecidableEq, Repr

namespace SortOrder

/-- The name of an order in a configuration. -/
def name : SortOrder → Text
  | filesystem => "filesystem".toList
  | alphabetical => "alphabetical".toList
  | specificity => "specificity".toList

/-- All orders. -/
def all : List SortOrder := [filesystem, alphabetical, specificity]

/-- The order with the given name. -/
def ofName? (t : Text) : Option SortOrder := all.find? fun o => o.name = t

variable {M : Type}

/-- How an order compares records, unless it leaves them as they are. -/
def comparator? : SortOrder → Option (Record M → Record M → Ordering)
  | filesystem => none
  | alphabetical => some Record.alphabetical
  | specificity => some Record.specificity

/-- The records in the given order. -/
def apply (o : SortOrder) (rs : List (Record M)) : List (Record M) :=
  match o.comparator? with
  | none => rs
  | some cmp => Record.sortBy cmp rs

end SortOrder

end FileRoutes
