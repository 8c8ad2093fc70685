/-!
# Texts and their pieces

A text is the list of its characters, a byte string the list of its bytes.  Both are cut at a
separator and put together again in the same way:

* `splitOn sep l` is the list of the pieces of `l` between the occurrences of `sep`;
* `joinWith sep ps` writes the pieces one after another with `sep` between them.

Cutting loses nothing (`joinWith_splitOn`), and pieces that do not hold the separator are found
again (`splitOn_joinWith`).
-/

namespace FileRoutes

/-- A text: its characters, in order. -/
abbrev Text := List Char

/-- A byte string. -/
abbrev Bytes := List UInt8

variable {α : Type}

/-- Put `x` in front of the first piece. -/
def consFirst (x : α) : List (List α) → List (List α)
  | [] => [[x]]
  | p :: ps => (x :: p) :: ps

/-- The pieces between the occurrences of `sep`: always one more than there are separators. -/
def splitOn [DecidableEq α] (sep : α) : List α → List (List α)
  | [] => [[]]
  | x :: l => if x = sep then [] :: splitOn sep l else consFirst x (splitOn sep l)

/-- The pieces one after another, with `sep` between two of them. -/
def joinWith (sep : α) : List (List α) → List α
  | [] => []
  | [p] => p
  | p :: q :: ps => p ++ sep :: joinWith sep (q :: ps)

/-! ### Cutting and joining -/

theorem splitOn_ne_nil [DecidableEq α] (sep : α) (l : List α) : splitOn sep l ≠ [] := by
  cases l with
  | nil => simp [splitOn]
  | cons x l =>
    rw [splitOn]
    split
    · simp
    · cases splitOn sep l <;> simp [consFirst]

theorem joinWith_nil_cons (sep : α) {ps : List (List α)} (h : ps ≠ []) :
    joinWith sep ([] :: ps) = sep :: joinWith sep ps := by
  cases ps with
  | nil => exact absurd rfl h
  | cons p ps => simp [joinWith]

theorem joinWith_consFirst (sep x : α) {ps : List (List α)} (h : ps ≠ []) :
    joinWith sep (consFirst x ps) = x :: joinWith sep ps := by
  cases ps with
  | nil => exact absurd rfl h
  | cons p ps => cases ps <;> simp [consFirst, joinWith]

@[simp] theorem joinWith_splitOn [DecidableEq α] (sep : α) (l : List α) : joinWith sep (splitOn sep l) = l := by
  induction l with
  | nil => simp [splitOn, joinWith]
  | cons x l ih =>
    rw [splitOn]
    split
    · rename_i h
      rw [joinWith_nil_cons sep (splitOn_ne_nil sep l), ih, h]
    · rw [joinWith_consFirst sep x (splitOn_ne_nil sep l), ih]

theorem splitOn_of_notMem [DecidableEq α] {sep : α} {p : List α} (h : sep ∉ p) : splitOn sep p = [p] := by
  induction p with
  | nil => rfl
  | cons x p ih =>
    rw [List.mem_cons, not_or] at h
    rw [splitOn, if_neg (Ne.symm h.1), ih h.2, consFirst]

theorem splitOn_append_cons [DecidableEq α] {sep : α} {p : List α} (h : sep ∉ p) (l : List α) :
    splitOn sep (p ++ sep :: l) = p :: splitOn sep l := by
  induction p with
  | nil => simp [splitOn]
  | cons x p ih =>
    rw [List.mem_cons, not_or] at h
    rw [List.cons_append, splitOn, if_neg (Ne.symm h.1), ih h.2, consFirst]

theorem splitOn_joinWith [DecidableEq α] {sep : α} {ps : List (List α)} (hne : ps ≠ [])
    (h : ∀ p ∈ ps, sep ∉ p) : splitOn sep (joinWith sep ps) = ps := by
  induction ps with
  | nil => exact absurd rfl hne
  | cons p ps ih =>
    cases ps with
    | nil => exact splitOn_of_notMem (h p List.mem_cons_self)
    | cons q ps =>
      rw [joinWith, splitOn_append_cons (h p List.mem_cons_self),
        ih (by simp) fun r hr => h r (List.mem_cons_of_mem p hr)]

theorem splitOn_append_sep [DecidableEq α] (sep : α) (l l' : List α) :
    splitOn sep (l ++ sep :: l') = splitOn sep l ++ splitOn sep l' := by
  induction l with
  | nil => simp [splitOn]
  | cons x l ih =>
    rw [List.cons_append, splitOn, splitOn, ih]
    split
    · rfl
    · cases h : splitOn sep l with
      | nil => exact absurd h (splitOn_ne_nil sep l)
      | cons p ps => rfl

/-- A list holds no separator, or it is a first piece, a separator and more pieces. -/
theorem splitOn_cases [DecidableEq α] (sep : α) (l : List α) :
    (sep ∉ l ∧ splitOn sep l = [l]) ∨
      ∃ p l', sep ∉ p ∧ l = p ++ sep :: l' ∧ splitOn sep l = p :: splitOn sep l' := by
  induction l with
  | nil => exact .inl ⟨by simp, rfl⟩
  | cons x l ih =>
    by_cases hx : x = sep
    · exact .inr ⟨[], l, by simp, by simp [hx], by rw [splitOn, if_pos hx]⟩
    · rw [splitOn, if_neg hx]
      obtain ⟨hn, hs⟩ | ⟨p, l', hp, hl, hs⟩ := ih
      · exact .inl ⟨by simp [hn, Ne.symm hx], by rw [hs, consFirst]⟩
      · exact .inr ⟨x :: p, l', by simp [hp, Ne.symm hx], by simp [hl], by rw [hs, consFirst]⟩

theorem notMem_of_mem_splitOn [DecidableEq α] {sep : α} {l p : List α} (h : p ∈ splitOn sep l) :
    sep ∉ p := by
  induction l generalizing p with
  | nil => simp_all [splitOn]
  | cons x l ih =>
    rw [splitOn] at h
    split at h
    · obtain rfl | h := List.mem_cons.1 h
      · simp
      · exact ih h
    · rename_i hx
      cases hs : splitOn sep l with
      | nil => exact absurd hs (splitOn_ne_nil sep l)
      | cons q qs =>
        rw [hs, consFirst] at h
        obtain rfl | h := List.mem_cons.1 h
        · simpa [Ne.symm hx] using ih (hs ▸ List.mem_cons_self)
        · exact ih (hs ▸ List.mem_cons_of_mem q h)

theorem prefix_of_splitOn [DecidableEq α] {sep : α} {l p : List α} {ps : List (List α)}
    (h : splitOn sep l = p :: ps) : p <+: l := by
  obtain ⟨-, hs⟩ | ⟨q, l', -, rfl, hs⟩ := splitOn_cases sep l
  · obtain ⟨rfl, -⟩ := List.cons.inj (h.symm.trans hs)
    exact List.prefix_refl _
  · obtain ⟨rfl, -⟩ := List.cons.inj (h.symm.trans hs)
    exact List.prefix_append _ _

/-- What holds no separator goes to the first piece. -/
theorem splitOn_append_of_notMem [DecidableEq α] {sep : α} {u l p : List α} {ps : List (List α)}
    (hu : sep ∉ u) (h : splitOn sep l = p :: ps) : splitOn sep (u ++ l) = (u ++ p) :: ps := by
  induction u with
  | nil => exact h
  | cons x u ih =>
    rw [List.mem_cons, not_or] at hu
    rw [List.cons_append, splitOn, if_neg (Ne.symm hu.1), ih hu.2]
    rfl

end FileRoutes
