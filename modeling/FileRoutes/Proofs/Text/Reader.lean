import FileRoutes.Proofs.Text.Quoted
import Mathlib.Data.List.Basic

/-!
# Readers

A reader takes something from the front of a text and leaves the rest.  It reads a written form
(`Reader.Reads`) when it returns what was written whatever follows, so readers one after another
read written forms one after another (`Reader.Reads.bind`).

A list is written between fixed texts (`Layout`), and it is read back when neither the text in place
of an empty list nor the text behind the last item can be taken for an item
(`Layout.reads_list`).
-/

namespace FileRoutes

/-- What takes something from the front of a text, and leaves the rest. -/
abbrev Reader := StateT Text Option

variable {α β : Type}

namespace Reader

/-- Take a fixed text. -/
def expect (t : Text) : Reader Unit := fun s =>
  if t.isPrefixOf s then some ((), s.drop t.length) else none

/-- Take a literal. -/
def quoted : Reader Text := Quoted.read?

/-- Take the fixed text `t`, which stands for `x`; if something else comes, go on with `r`. -/
def stopAt (t : Text) (x : α) (r : Reader α) : Reader α := fun s =>
  if t.isPrefixOf s then some (x, s.drop t.length) else r s

/-- Take items up to a closing text, so many at most. -/
def itemsWithin (item : Reader α) (closing : Text) : Nat → Reader (List α)
  | 0 => fun _ => none
  | n + 1 => stopAt closing [] do
    let x ← item
    let xs ← itemsWithin item closing n
    return x :: xs

/-- Take items up to a closing text.  There are no more of them than characters. -/
def items (item : Reader α) (closing : Text) : Reader (List α) := fun s =>
  itemsWithin item closing (s.length + 1) s

/-- What a reader takes from a whole text, when it leaves nothing. -/
def all? (r : Reader α) (t : Text) : Option α :=
  match r t with
  | some (x, []) => some x
  | _ => none

/-- The reader takes `x` from its written form `w`, whatever follows. -/
def Reads (r : Reader α) (w : Text) (x : α) : Prop := ∀ rest, r (w ++ rest) = some (x, rest)

/-! ### One after another -/

theorem Reads.all? {r : Reader α} {w : Text} {x : α} (h : Reads r w x) : r.all? w = some x := by
  have h := h []
  rw [List.append_nil] at h
  rw [Reader.all?, h]

theorem Reads.bind {r : Reader α} {k : α → Reader β} {w w' : Text} {x : α} {y : β}
    (h : Reads r w x) (h' : Reads (k x) w' y) : Reads (r >>= k) (w ++ w') y := by
  intro rest
  change (r (w ++ w' ++ rest)).bind (fun e => k e.1 e.2) = _
  rw [List.append_assoc, h, Option.bind_some, h']

theorem Reads.bind_pure {r : Reader α} {w : Text} {x : α} (h : Reads r w x) (f : α → β) :
    Reads (r >>= fun a => pure (f a)) w (f x) := by
  have hpure : Reads (pure (f x)) [] (f x) := fun _ => rfl
  simpa using h.bind (k := fun a => pure (f a)) hpure

theorem reads_expect (t : Text) : Reads (expect t) t () := by
  intro rest
  rw [expect, if_pos (List.isPrefixOf_iff_prefix.2 (List.prefix_append _ _)), List.drop_left]

theorem reads_stop (t : Text) (x : α) (r : Reader α) : Reads (stopAt t x r) t x := by
  intro rest
  rw [stopAt, if_pos (List.isPrefixOf_iff_prefix.2 (List.prefix_append _ _)), List.drop_left]

theorem Reads.stopAt {r : Reader α} {w : Text} {x : α} (h : Reads r w x) {t : Text} (y : α)
    (ht : ∀ s, t.isPrefixOf (w ++ s) = false) : Reads (stopAt t y r) w x := by
  intro rest
  rw [Reader.stopAt, ht, if_neg Bool.false_ne_true, h]

theorem reads_quoted (t : Text) : Reads quoted (Quoted.encode t) t := Quoted.read?_encode t

end Reader

open Reader

/-- The fixed texts around the items of a list. -/
structure Layout where
  /-- What stands in place of an empty list. -/
  empty : Text
  /-- What stands in front of the first item. -/
  opening : Text
  /-- What stands between two items. -/
  between : Text
  /-- What stands behind the last item. -/
  closing : Text

namespace Layout

variable (l : Layout)

/-- Some items, with the fixed texts around them. -/
def text : List Text → Text
  | [] => l.empty
  | t :: ts => l.opening ++ (t ++ (ts.flatMap (l.between ++ ·) ++ l.closing))

/-- Take a list whose items are taken by `item`. -/
def list (item : Reader α) : Reader (List α) := stopAt l.empty [] do
  expect l.opening
  let x ← item
  let xs ← items (do expect l.between; item) l.closing
  return x :: xs

/-- Neither the text in place of an empty list nor the one behind the last item can be taken for
the start of an item that `write` writes. -/
structure Clear (write : α → Text) : Prop where
  empty : ∀ x s, l.empty.isPrefixOf (l.opening ++ (write x ++ s)) = false
  closing : ∀ x s, l.closing.isPrefixOf (l.between ++ (write x ++ s)) = false

variable {l} {write : α → Text} {item : Reader β} {f : α → β}

theorem Clear.ne_nil (h : l.Clear write) (x : α) : l.between ++ write x ≠ [] := by
  intro hnil
  have hclosing := h.closing x l.closing
  rw [← List.append_assoc, hnil, List.nil_append, ← Bool.not_eq_true,
    List.isPrefixOf_iff_prefix] at hclosing
  exact hclosing List.prefix_rfl

/-- Items with the text in front of each are read, in enough rounds. -/
theorem reads_itemsWithin (h : l.Clear write) (hitem : ∀ x, Reads item (write x) (f x))
    (xs : List α) {n : Nat} (hn : xs.length < n) :
    Reads (itemsWithin (do expect l.between; item) l.closing n)
      (xs.flatMap (fun x => l.between ++ write x) ++ l.closing) (xs.map f) := by
  induction xs generalizing n with
  | nil =>
    obtain ⟨n, rfl⟩ := Nat.exists_eq_succ_of_ne_zero (Nat.ne_of_gt hn)
    exact reads_stop _ _ _
  | cons x xs ih =>
    obtain ⟨n, rfl⟩ := Nat.exists_eq_succ_of_ne_zero (Nat.ne_of_gt (Nat.zero_lt_of_lt hn))
    have hx : Reads (do expect l.between; item) (l.between ++ write x) (f x) :=
      (reads_expect _).bind (hitem x)
    rw [List.flatMap_cons, List.append_assoc]
    refine (hx.bind ((ih (Nat.lt_of_succ_lt_succ hn)).bind_pure (f x :: ·))).stopAt [] fun s => ?_
    rw [List.append_assoc, List.append_assoc]
    exact h.closing x _

theorem reads_items (h : l.Clear write) (hitem : ∀ x, Reads item (write x) (f x)) (xs : List α) :
    Reads (items (do expect l.between; item) l.closing)
      (xs.flatMap (fun x => l.between ++ write x) ++ l.closing) (xs.map f) := by
  intro rest
  refine reads_itemsWithin h hitem xs ?_ rest
  -- every item takes up at least one character
  have hlen : xs.length ≤ (xs.flatMap fun x => l.between ++ write x).length := by
    induction xs with
    | nil => exact Nat.le_refl _
    | cons x xs ih =>
      have hpos := List.length_pos_of_ne_nil (h.ne_nil x)
      rw [List.flatMap_cons, List.length_cons, List.length_append]
      omega
  simp only [List.length_append] at hlen ⊢
  omega

/-- **A list is read back from its written form.** -/
theorem reads_list (h : l.Clear write) (hitem : ∀ x, Reads item (write x) (f x)) (xs : List α) :
    Reads (l.list item) (l.text (xs.map write)) (xs.map f) := by
  cases xs with
  | nil => exact reads_stop _ _ _
  | cons x xs =>
    rw [List.map_cons, text, List.flatMap_map]
    refine ((reads_expect _).bind ((hitem x).bind
      ((reads_items h hitem xs).bind_pure (f x :: ·)))).stopAt [] fun s => ?_
    rw [List.append_assoc, List.append_assoc]
    exact h.empty x _

end Layout

end FileRoutes
