import FileRoutes.Glob.Basic
import Mathlib.Data.List.Forall2

/-!
# Globs within names

What the items of a glob stand for in a name is said here without a word about slashes
(`Glob.Describes`): `?` for any character, `*` for any run of characters, a set for a character that
one of its members holds, or none of them (`Glob.Member.Holds`).

When the items of some pieces stand one behind another with slashes between them, they cover a text
exactly if the text has as many pieces and each of them is described by the items at its place
(`Glob.covers_joinWith`).  So no item reaches over a slash.
-/

namespace FileRoutes

namespace Glob

variable {t : Token} {ts us : List Token} {s : Text} {k : Text → Bool}

/-- The character is the member, or lies between its ends. -/
def Member.Holds (c : Char) : Member → Prop
  | .single a => c = a
  | .range a b => a ≤ c ∧ c ≤ b

/-- The item stands for a part of a name. -/
def Token.Takes : Token → Text → Prop
  | .char a, s => s = [a]
  | .any, s => ∃ c, s = [c]
  | .run, _ => True
  | .pieces, _ => False
  | .inside ms, s => ∃ c, s = [c] ∧ ∃ m ∈ ms, m.Holds c
  | .outside ms, s => ∃ c, s = [c] ∧ ∀ m ∈ ms, ¬ m.Holds c

/-- The items stand for the parts of a name, one after another. -/
inductive Describes : List Token → Text → Prop where
  | nil : Describes [] []
  | cons {t : Token} {ts : List Token} {a s : Text} :
      t.Takes a → Describes ts s → Describes (t :: ts) (a ++ s)

/-- The items of a piece: neither a slash nor a `**` is among them. -/
def OnePiece (ts : List Token) : Prop := .char '/' ∉ ts ∧ .pieces ∉ ts

theorem describes_nil : Describes [] s ↔ s = [] := by
  constructor
  · rintro ⟨⟩
    rfl
  · rintro rfl
    exact .nil

theorem describes_cons :
    Describes (t :: ts) s ↔ ∃ a r, s = a ++ r ∧ t.Takes a ∧ Describes ts r := by
  constructor
  · rintro (_ | ⟨ht, hts⟩)
    exact ⟨_, _, rfl, ht, hts⟩
  · rintro ⟨a, r, rfl, ht, hts⟩
    exact .cons ht hts

theorem onePiece_cons : OnePiece (t :: ts) ↔ (t ≠ .char '/' ∧ t ≠ .pieces) ∧ OnePiece ts := by
  simp only [OnePiece, List.mem_cons, not_or, ne_comm]
  tauto

/-! ### Single items -/

theorem Member.has_iff {m : Member} {c : Char} : Member.has c m = true ↔ m.Holds c := by
  cases m <;> simp [Member.has, Member.Holds]

theorem anyHas_iff {ms : List Member} {c : Char} : anyHas ms c = true ↔ ∃ m ∈ ms, m.Holds c := by
  simp only [anyHas, List.any_eq_true, Member.has_iff]

/-- An item for one character of `P` that is not a slash. -/
theorem afterOne_iff {p : Char → Bool} {P : Char → Prop}
    (hp : ∀ c, p c = true ↔ c ≠ '/' ∧ P c) :
    afterOne p k s = true ↔
      ∃ a r, s = a ++ r ∧ '/' ∉ a ∧ (∃ c, a = [c] ∧ P c) ∧ k r = true := by
  constructor
  · intro h
    cases s with
    | nil => cases h
    | cons c r =>
      rw [afterOne, Bool.and_eq_true, hp] at h
      obtain ⟨⟨hc, hP⟩, hr⟩ := h
      exact ⟨[c], r, rfl, by simp [Ne.symm hc], ⟨c, rfl, hP⟩, hr⟩
  · rintro ⟨_, r, rfl, hslash, ⟨c, rfl, hP⟩, hr⟩
    rw [List.singleton_append, afterOne, Bool.and_eq_true, hp]
    exact ⟨⟨fun h => hslash (h ▸ List.mem_cons_self), hP⟩, hr⟩

theorem afterRun_iff : afterRun k s = true ↔ ∃ a r, s = a ++ r ∧ '/' ∉ a ∧ k r = true := by
  induction s with
  | nil => simp [afterRun]
  | cons c s ih =>
    rw [afterRun, Bool.or_eq_true, Bool.and_eq_true, bne_iff_ne, ih]
    constructor
    · rintro (h | ⟨hc, a, r, rfl, ha, h⟩)
      · exact ⟨[], c :: s, rfl, List.not_mem_nil, h⟩
      · exact ⟨c :: a, r, rfl, by simp [Ne.symm hc, ha], h⟩
    · rintro ⟨a, r, hs, ha, h⟩
      obtain ⟨rfl, rfl⟩ | ⟨a, rfl, rfl⟩ := List.cons_eq_append_iff.1 hs
      · exact .inl h
      · rw [List.mem_cons, not_or] at ha
        exact .inr ⟨Ne.symm ha.1, a, r, rfl, ha.2, h⟩

/-- An item takes no slash, unless it is one. -/
theorem covers_cons (ht : t ≠ .char '/') (ht' : t ≠ .pieces) :
    covers (t :: ts) s = true ↔
      ∃ a r, s = a ++ r ∧ '/' ∉ a ∧ t.Takes a ∧ covers ts r = true := by
  cases t with
  | char a =>
    have ha : '/' ≠ a := fun h => ht (h ▸ rfl)
    rw [covers, afterOne_iff (P := fun c => c = a) fun c => by
      rw [beq_iff_eq]
      exact ⟨fun h => ⟨h ▸ ha.symm, h⟩, And.right⟩]
    simp [Token.Takes]
  | any =>
    rw [covers, afterOne_iff (P := fun _ => True) fun c => by simp]
    simp [Token.Takes]
  | run =>
    rw [covers, afterRun_iff]
    simp [Token.Takes]
  | pieces => exact absurd rfl ht'
  | inside ms =>
    rw [covers, afterOne_iff (P := fun c => ∃ m ∈ ms, m.Holds c) fun c => by
      simp [anyHas_iff]]
    rfl
  | outside ms =>
    rw [covers, afterOne_iff (P := fun c => ∀ m ∈ ms, ¬ m.Holds c) fun c => by
      simp [← Bool.not_eq_true, anyHas_iff]]
    rfl

/-! ### Pieces -/

/-- The items of a piece take a part without slashes, and describe it. -/
theorem covers_append (hts : OnePiece ts) :
    covers (ts ++ us) s = true ↔
      ∃ a r, s = a ++ r ∧ '/' ∉ a ∧ Describes ts a ∧ covers us r = true := by
  induction ts generalizing s with
  | nil => simp [describes_nil]
  | cons t ts ih =>
    obtain ⟨⟨ht, ht'⟩, hts⟩ := onePiece_cons.1 hts
    rw [List.cons_append, covers_cons ht ht']
    constructor
    · rintro ⟨a, r, rfl, ha, htakes, hr⟩
      obtain ⟨b, r, rfl, hb, hdesc, hr⟩ := (ih hts).1 hr
      exact ⟨a ++ b, r, (List.append_assoc _ _ _).symm, by simp [ha, hb], .cons htakes hdesc, hr⟩
    · rintro ⟨_, r, rfl, hslash, hdesc, hr⟩
      obtain ⟨a, b, rfl, htakes, hdesc⟩ := describes_cons.1 hdesc
      rw [List.mem_append, not_or] at hslash
      exact ⟨a, b ++ r, List.append_assoc _ _ _, hslash.1, htakes,
        (ih hts).2 ⟨b, r, rfl, hslash.2, hdesc, hr⟩⟩

theorem covers_piece (hts : OnePiece ts) :
    covers ts s = true ↔ '/' ∉ s ∧ Describes ts s := by
  have happend : covers (ts ++ []) s = true ↔ _ := covers_append hts
  rw [List.append_nil] at happend
  rw [happend]
  constructor
  · rintro ⟨a, r, rfl, ha, hdesc, hr⟩
    obtain rfl : r = [] := List.isEmpty_iff.1 hr
    rw [List.append_nil]
    exact ⟨ha, hdesc⟩
  · rintro ⟨hs, hdesc⟩
    exact ⟨s, [], (List.append_nil s).symm, hs, hdesc, rfl⟩

theorem covers_append_slash (hts : OnePiece ts) :
    covers (ts ++ .char '/' :: us) s = true ↔
      ∃ a r, s = a ++ '/' :: r ∧ '/' ∉ a ∧ Describes ts a ∧ covers us r = true := by
  rw [covers_append hts]
  constructor
  · rintro ⟨a, r, rfl, ha, hdesc, hr⟩
    cases r with
    | nil => cases hr
    | cons c r =>
      rw [covers, afterOne, Bool.and_eq_true, beq_iff_eq] at hr
      obtain ⟨rfl, hr⟩ := hr
      exact ⟨a, r, rfl, ha, hdesc, hr⟩
  · rintro ⟨a, r, rfl, ha, hdesc, hr⟩
    exact ⟨a, '/' :: r, rfl, ha, hdesc, by simpa [covers, afterOne] using hr⟩

/-- **Pieces of a glob cover the pieces of a text one by one.** -/
theorem covers_joinWith {gs : List (List Token)} (hgs : ∀ g ∈ gs, OnePiece g) (hne : gs ≠ []) :
    covers (joinWith (.char '/') gs) s = true ↔ List.Forall₂ Describes gs (splitOn '/' s) := by
  induction gs generalizing s with
  | nil => exact absurd rfl hne
  | cons g gs ih =>
    obtain ⟨hg, hgs⟩ := List.forall_mem_cons.1 hgs
    cases gs with
    | nil =>
      rw [joinWith, covers_piece hg]
      obtain ⟨hs, hsplit⟩ | ⟨p, r, -, rfl, hsplit⟩ := splitOn_cases '/' s
      · simp [hs, hsplit]
      · obtain ⟨q, qs, hr⟩ := List.exists_cons_of_ne_nil (splitOn_ne_nil '/' r)
        simp [hsplit, hr]
    | cons g' gs =>
      rw [joinWith, covers_append_slash hg]
      obtain ⟨hs, hsplit⟩ | ⟨p, r, hp, rfl, hsplit⟩ := splitOn_cases '/' s
      · rw [hsplit, List.forall₂_cons]
        constructor
        · rintro ⟨a, r, rfl, -⟩
          exact absurd (List.mem_append_right _ List.mem_cons_self) hs
        · rintro ⟨-, h⟩
          cases h
      · rw [hsplit, List.forall₂_cons, ← ih hgs (List.cons_ne_nil _ _)]
        constructor
        · rintro ⟨a, r', heq, ha, hdesc, hr⟩
          have hfirst := splitOn_append_cons ha r'
          rw [← heq, splitOn_append_cons hp, List.cons.injEq] at hfirst
          obtain rfl := hfirst.1
          obtain ⟨-, rfl⟩ := List.cons.inj (List.append_cancel_left heq)
          exact ⟨hdesc, hr⟩
        · rintro ⟨hdesc, hr⟩
          exact ⟨p, r, rfl, hp, hdesc, hr⟩

end Glob

end FileRoutes
