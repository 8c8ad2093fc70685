import FileRoutes.Text.Quoted

/-!
# Reading literals that were written

The written form of a character stands for that character alone, so nothing inside a literal can be
taken for its end: a literal is read back whatever follows it (`Quoted.read?_encode`).
-/

namespace FileRoutes

namespace Hex

theorem value?_lower : ∀ n < 16, value? (lower n) = some n := by decide

end Hex

namespace Quoted

/-! ### One character -/

theorem readBody?_escape {c x : Char} (hu : c ≠ 'u') (h : shortEscape? c = some x) (r : Text) :
    readBody? ('\\' :: c :: r) = push x (readBody? r) := by
  rw [readBody?]
  · rw [h]
  · rintro _ _ _ _ _ rfl
    exact absurd rfl hu

theorem readBody?_unit {n : Nat} (h : n < 0x20) (r : Text) :
    readBody? ('\\' :: 'u' :: '0' :: '0' :: Hex.lower (n / 16) :: Hex.lower (n % 16) :: r) =
      push (Char.ofNat n) (readBody? r) := by
  have hhi := Hex.value?_lower (n / 16) (by omega)
  have hlo := Hex.value?_lower (n % 16) (by omega)
  have hzero : Hex.value? '0' = some 0 := rfl
  have hn : n / 16 * 16 + n % 16 = n := by omega
  rw [readBody?]
  simp only [Hex.ofDigits?, hzero, hhi, hlo, Nat.zero_mul, Nat.add_zero, Nat.zero_add, hn]
  rw [Option.bind_some, unit?, if_pos (by omega)]

theorem readBody?_of_plain {c : Char} (hquote : c ≠ '"') (hslash : c ≠ '\\') (h : 0x20 ≤ c.toNat)
    (r : Text) : readBody? (c :: r) = push c (readBody? r) := by
  rw [readBody?]
  · rw [if_neg (by simp [hslash]; omega)]
  · exact hquote
  · rintro _ _ _ _ _ rfl
    exact absurd rfl hslash
  · rintro _ _ rfl
    exact absurd rfl hslash

/-- The written form of a character stands for that character, whatever follows. -/
theorem readBody?_encodeChar (c : Char) (r : Text) :
    readBody? (encodeChar c ++ r) = push c (readBody? r) := by
  unfold encodeChar
  split
  -- seven characters have a letter of their own
  iterate 7 exact readBody?_escape (by decide) rfl r
  rename_i hquote hslash _ _ _ _ _
  split
  · rename_i h
    have hunit := readBody?_unit h r
    rwa [Char.ofNat_toNat] at hunit
  · rename_i h
    exact readBody?_of_plain hquote hslash (Nat.not_lt.1 h) r

/-! ### Literals -/

theorem readBody?_encode (t r : Text) :
    readBody? (t.flatMap encodeChar ++ '"' :: r) = some (t, r) := by
  induction t with
  | nil => rw [List.flatMap_nil, List.nil_append, readBody?]
  | cons c t ih =>
    rw [List.flatMap_cons, List.append_assoc, readBody?_encodeChar, ih]
    rfl

/-- **A literal is read back, whatever follows it.** -/
theorem read?_encode (t r : Text) : read? (encode t ++ r) = some (t, r) := by
  rw [encode, List.cons_append, List.append_assoc, read?]
  exact readBody?_encode t r

end Quoted

end FileRoutes
