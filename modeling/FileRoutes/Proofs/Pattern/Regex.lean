import FileRoutes.Pattern.Matchable

/-!
# Regular expressions

The part of the usual language of regular expressions in which matchable patterns are written:
characters, escaped where they have a meaning of their own, classes `[^..]`, the repetition `+`,
capturing groups, and the anchors `^` and `$`.

* `Regex.ofText?` reads an expression, character by character (`Regex.Reader.step`);
* `Regex.Matches` is its meaning: the piece of a text it matches, what stands before and after
  that piece, and what its groups capture;
* `Regex.Finds` is a search: the expression matches somewhere in a text.

The text of a list of items is such an expression (`Regex.ofText?_text`), and searching with it
finds what the items accept, with the same captures (`Regex.finds_ofAtoms`).
-/

namespace FileRoutes

/-- A regular expression. -/
inductive Regex where
  /-- Nothing at all. -/
  | empty
  /-- The character itself. -/
  | char (c : Char)
  /-- One character that is none of these. -/
  | noneOf (cs : List Char)
  /-- The start of the text. -/
  | start
  /-- The end of the text. -/
  | stop
  /-- One or more matches, one after another. -/
  | plus (r : Regex)
  /-- A match, captured. -/
  | group (r : Regex)
  /-- A match of the first, and behind it one of the second. -/
  | cat (r s : Regex)
  deriving DecidableEq, Repr

namespace Regex

/-- Expressions one after another. -/
def seq : List Regex → Regex
  | [] => .empty
  | r :: rs => .cat r (seq rs)

/-- The number of capturing groups. -/
def groups : Regex → Nat
  | .plus r => r.groups
  | .group r => r.groups + 1
  | .cat r s => r.groups + s.groups
  | _ => 0

/-! ### Reading -/

/-- Where a reader stands in the text of an expression. -/
inductive Mode where
  /-- Between two items. -/
  | between
  /-- Behind a backslash. -/
  | escaped
  /-- Behind the bracket that opens a class. -/
  | opened
  /-- In a class, behind these characters, last one first. -/
  | inClass (cs : List Char)
  deriving DecidableEq, Repr

/-- What has been read: the items of the innermost group, those of the groups around it, from
the inside out, each with the last item first. -/
structure Reader where
  items : List Regex
  outer : List (List Regex)
  mode : Mode
  deriving DecidableEq, Repr

namespace Reader

/-- One more item. -/
def push (s : Reader) (r : Regex) : Reader := ⟨r :: s.items, s.outer, .between⟩

/-- One more character between two items. -/
def stepBetween (s : Reader) (c : Char) : Option Reader :=
  match c with
  | '\\' => some { s with mode := .escaped }
  | '^' => some (s.push .start)
  | '$' => some (s.push .stop)
  | '[' => some { s with mode := .opened }
  | '(' => some ⟨[], s.items :: s.outer, .between⟩
  | ')' =>
    match s.outer with
    | [] => none
    | items :: outer => some ⟨.group (seq s.items.reverse) :: items, outer, .between⟩
  | '+' =>
    match s.items with
    | [] => none
    | r :: items => some ⟨.plus r :: items, s.outer, .between⟩
  | c => if c ∈ Matchable.metaChars then none else some (s.push (.char c))

/-- One more character.  Without a value the text is no expression of this language. -/
def step (s : Reader) (c : Char) : Option Reader :=
  match s.mode with
  | .between => s.stepBetween c
  | .escaped => if c ∈ Matchable.metaChars then some (s.push (.char c)) else none
  | .opened => if c = '^' then some { s with mode := .inClass [] } else none
  | .inClass cs =>
    if c = ']' then (if cs = [] then none else some (s.push (.noneOf cs.reverse)))
    else if c ∈ Matchable.metaChars then none
    else some { s with mode := .inClass (c :: cs) }

/-- The expression that was read, if nothing is left open. -/
def result? : Reader → Option Regex
  | ⟨items, [], .between⟩ => some (seq items.reverse)
  | _ => none

end Reader

/-- The expression that a text is the written form of. -/
def ofText? (t : Text) : Option Regex :=
  (t.foldlM Reader.step ⟨[], [], .between⟩).bind Reader.result?

/-! ### Meaning -/

/-- `Matches r u x w cs`: between `u` and `w`, the expression matches `x`, and its groups capture
`cs`.  Of a repetition the last round counts. -/
inductive Matches : Regex → Text → Text → Text → List Text → Prop where
  | empty (u w : Text) : Matches .empty u [] w []
  | char (c : Char) (u w : Text) : Matches (.char c) u [c] w []
  | noneOf {cs : List Char} {c : Char} (u w : Text) : c ∉ cs → Matches (.noneOf cs) u [c] w []
  | start (w : Text) : Matches .start [] [] w []
  | stop (u : Text) : Matches .stop u [] [] []
  | once {r : Regex} {u x w : Text} {cs : List Text} :
      Matches r u x w cs → Matches (.plus r) u x w cs
  | again {r : Regex} {u x y w : Text} {cs cs' : List Text} :
      Matches r u x (y ++ w) cs → Matches (.plus r) (u ++ x) y w cs' →
        Matches (.plus r) u (x ++ y) w cs'
  | group {r : Regex} {u x w : Text} {cs : List Text} :
      Matches r u x w cs → Matches (.group r) u x w (x :: cs)
  | cat {r s : Regex} {u x y w : Text} {cs cs' : List Text} :
      Matches r u x (y ++ w) cs → Matches s (u ++ x) y w cs' →
        Matches (.cat r s) u (x ++ y) w (cs ++ cs')

/-- The expression matches somewhere in the text, and its groups capture `cs`. -/
def Finds (r : Regex) (s : Text) (cs : List Text) : Prop :=
  ∃ u x w, s = u ++ x ++ w ∧ Matches r u x w cs

/-! ### The expression of a list of items -/

open Matchable (Atom)

/-- The expression of one item. -/
def ofAtom : Atom → Regex
  | .char c => .char c
  | .capture => .group (seq [.plus (.noneOf ['/'])])

/-- The expression of items between two anchors. -/
def ofAtoms (as : List Atom) : Regex := seq (.start :: (as.map ofAtom ++ [.stop]))

theorem groups_ofAtoms (as : List Atom) : (ofAtoms as).groups = Matchable.groups as := by
  have h : (seq (as.map ofAtom ++ [.stop])).groups = Matchable.groups as := by
    induction as with
    | nil => rfl
    | cons a as ih =>
      cases a with
      | char c => simpa [seq, groups, ofAtom, Matchable.groups] using ih
      | capture =>
        rw [List.map_cons, List.cons_append, seq, groups, ih]
        simp [Matchable.groups, ofAtom, seq, groups, Nat.add_comm]
  change 0 + (seq (as.map ofAtom ++ [.stop])).groups = _
  rw [h, Nat.zero_add]

theorem stepBetween_of_notMem {c : Char} (h : c ∉ Matchable.metaChars) (s : Reader) :
    s.stepBetween c = some (s.push (.char c)) := by
  unfold Reader.stepBetween
  split <;> first | exact absurd (by decide) h | exact if_neg h

/-- The text of an item is read as one more item. -/
theorem foldlM_step_text (a : Atom) (items : List Regex) (outer : List (List Regex)) :
    a.text.foldlM Reader.step ⟨items, outer, .between⟩ =
      some ⟨ofAtom a :: items, outer, .between⟩ := by
  cases a with
  | capture => rfl
  | char c =>
    -- an escaped character and a plain one come out the same
    rw [Atom.text, Matchable.escapeChar]
    split
    · rename_i h
      simp [Reader.step, Reader.stepBetween, Reader.push, ofAtom, h]
    · rename_i h
      simp [Reader.step, stepBetween_of_notMem h, Reader.push, ofAtom]

theorem foldlM_step_flatMap (as : List Atom) (items : List Regex) (outer : List (List Regex)) :
    (as.flatMap Atom.text).foldlM Reader.step ⟨items, outer, .between⟩ =
      some ⟨(as.map ofAtom).reverse ++ items, outer, .between⟩ := by
  induction as generalizing items with
  | nil => rfl
  | cons a as ih =>
    rw [List.flatMap_cons, List.foldlM_append, foldlM_step_text]
    change (as.flatMap Atom.text).foldlM Reader.step _ = _
    rw [ih]
    simp

/-- **The text of a list of items is a regular expression.** -/
theorem ofText?_text (as : List Atom) : ofText? (Matchable.text as) = some (ofAtoms as) := by
  rw [ofText?, Matchable.text, List.foldlM_cons]
  change ((as.flatMap Atom.text ++ ['$']).foldlM Reader.step
    ⟨[.start], [], .between⟩).bind Reader.result? = _
  rw [List.foldlM_append, foldlM_step_flatMap]
  change Reader.result? ⟨.stop :: ((as.map ofAtom).reverse ++ [.start]), [], .between⟩ = _
  simp [Reader.result?, ofAtoms]

theorem matches_plus_noneOf {cs : List Char} {u x w : Text} {ts : List Text} :
    Matches (.plus (.noneOf cs)) u x w ts ↔ x ≠ [] ∧ (∀ c ∈ x, c ∉ cs) ∧ ts = [] := by
  constructor
  · intro h
    -- induction on the match, round by round, needs the expression as a variable
    generalize hr : Regex.plus (.noneOf cs) = r at h
    induction h with
    | empty | char | noneOf | start | stop | group | cat => cases hr
    | once h =>
      cases hr
      cases h with
      | noneOf _ _ hc => simpa using hc
    | again h _ _ ih =>
      cases hr
      obtain ⟨-, hy, rfl⟩ := ih rfl
      cases h with
      | noneOf _ _ hc =>
        refine ⟨by simp, fun c hc' => ?_, rfl⟩
        obtain rfl | hc' := List.mem_cons.1 hc'
        · exact hc
        · exact hy c hc'
  · rintro ⟨hx, hc, rfl⟩
    induction x generalizing u with
    | nil => exact absurd rfl hx
    | cons c x ih =>
      have hone (w : Text) : Matches (.noneOf cs) u [c] w [] :=
        .noneOf u w (hc c List.mem_cons_self)
      by_cases hn : x = []
      · subst hn
        exact .once (hone w)
      · exact .again (hone (x ++ w)) (ih hn fun c' hc' => hc c' (List.mem_cons_of_mem c hc'))

theorem matches_ofAtom_capture {u x w : Text} {ts : List Text} :
    Matches (ofAtom .capture) u x w ts ↔ x ≠ [] ∧ '/' ∉ x ∧ ts = [x] := by
  have hmem : (∀ c ∈ x, c ∉ ['/']) ↔ '/' ∉ x := by
    simp only [List.mem_singleton]
    exact ⟨fun h hs => h _ hs rfl, fun h c hc he => h (he ▸ hc)⟩
  constructor
  · intro h
    cases h with
    | group h =>
      cases h with
      | cat h h' =>
        cases h'
        rw [List.append_nil, matches_plus_noneOf] at *
        obtain ⟨hx, hc, rfl⟩ := h
        exact ⟨hx, hmem.1 hc, rfl⟩
  · rintro ⟨hx, hc, rfl⟩
    refine @Matches.group _ _ _ _ [] ?_
    have h := Matches.cat (matches_plus_noneOf (u := u) (w := [] ++ w).2 ⟨hx, hmem.2 hc, rfl⟩)
      (.empty (u ++ x) w)
    simpa [seq] using h

/-- Items in front of the closing anchor match what they accept, and only at the end. -/
theorem matches_items {as : List Atom} {u x w : Text} {cs : List Text} :
    Matches (seq (as.map ofAtom ++ [.stop])) u x w cs ↔ w = [] ∧ Matchable.Accepts as x cs := by
  constructor
  · intro h
    induction as generalizing u x cs with
    | nil =>
      -- only the closing anchor is left: nothing is matched and nothing follows
      cases h with
      | cat h h' =>
        cases h'
        cases h
        exact ⟨rfl, .nil⟩
    | cons a as ih =>
      cases h with
      | cat h h' =>
        obtain ⟨hw, hacc⟩ := ih h'
        cases a with
        | char c =>
          cases h
          exact ⟨hw, .char c hacc⟩
        | capture =>
          obtain ⟨hx, hs, rfl⟩ := matches_ofAtom_capture.1 h
          exact ⟨hw, .capture _ hx hs hacc⟩
  · rintro ⟨rfl, h⟩
    induction h generalizing u with
    | nil => exact .cat (x := []) (y := []) (.stop u) (.empty _ _)
    | char c _ ih => exact .cat (.char c u _) ih
    | capture x hx hs _ ih => exact .cat (matches_ofAtom_capture.2 ⟨hx, hs, rfl⟩) ih

/-- **Searching with the expression of a list of items finds what the items accept.** -/
theorem finds_ofAtoms {as : List Atom} {s : Text} {cs : List Text} :
    (ofAtoms as).Finds s cs ↔ Matchable.Accepts as s cs := by
  constructor
  · rintro ⟨u, x, w, rfl, h⟩
    cases h with
    | cat h h' =>
      -- the opening anchor leaves nothing in front, the closing one nothing behind
      cases h
      obtain ⟨rfl, hacc⟩ := matches_items.1 h'
      simpa using hacc
  · intro h
    exact ⟨[], s, [], by simp, .cat (.start _) (matches_items.2 ⟨rfl, h⟩)⟩

end Regex

end FileRoutes
