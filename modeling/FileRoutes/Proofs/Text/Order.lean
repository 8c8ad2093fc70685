import FileRoutes.Text.Utf8
import Mathlib.Tactic.SplitIfs

/-!
# The order of texts is that of their bytes

UTF-8 keeps the order of characters: the bytes of the smaller one come first, whatever stands
behind them (`Utf8.compare_encodeChar`).  So comparing two texts character by character and
comparing them byte by byte is the same (`Utf8.compare_encode`).
-/

namespace FileRoutes

namespace Utf8

variable {s t : Bytes}

theorem compare_cons (a b : UInt8) :
    compare (a :: s) (b :: t) = (compare a b).then (compare s t) :=
  List.compareLex_cons_cons

/-- Different first bytes decide, equal ones do not count. -/
theorem compare_cons_eq_lt {m n : Nat} (hm : m < 256) (hn : n < 256) :
    compare (UInt8.ofNat m :: s) (UInt8.ofNat n :: t) = .lt ↔
      m < n ∨ m = n ∧ compare s t = .lt := by
  have hbyte {k : Nat} (h : k < 256) : (UInt8.ofNat k).toNat = k := by simp; omega
  have hlt : compare (UInt8.ofNat m) (UInt8.ofNat n) = .lt ↔ m < n := by
    rw [Std.compare_eq_lt, UInt8.lt_iff_toNat_lt, hbyte hm, hbyte hn]
  have heq : compare (UInt8.ofNat m) (UInt8.ofNat n) = .eq ↔ m = n := by
    rw [Std.compare_eq_iff_eq, ← UInt8.toNat_inj, hbyte hm, hbyte hn]
  rw [compare_cons, Ordering.then_eq_lt, hlt, heq]

theorem compare_append (l s t : Bytes) : compare (l ++ s) (l ++ t) = compare s t := by
  induction l with
  | nil => rfl
  | cons b l ih =>
    rw [List.cons_append, List.cons_append, compare_cons, ih, Std.compare_self, Ordering.then]

theorem toNat_lt_of_lt {c d : Char} (h : c < d) : c.val.toNat < d.val.toNat := h

theorem val_lt (c : Char) : c.val.toNat < 0x110000 := by
  obtain h | h := c.valid
  · have h : c.val.toNat < 0xD800 := h
    omega
  · exact h.2

/-- A scalar value is made of the bits that its bytes hold. -/
theorem eq_sum_bits {v : Nat} (h : v < 0x110000) :
    v = ((v / 262144 % 8 * 64 + v / 4096 % 64) * 64 + v / 64 % 64) * 64 + v % 64 := by
  omega

/-- Of two characters the smaller one has the smaller bytes, whatever follows. -/
theorem compare_encodeChar {c d : Char} (h : c < d) (s t : Bytes) :
    compare (String.utf8EncodeChar c ++ s) (String.utf8EncodeChar d ++ t) = .lt := by
  obtain ⟨v, hv⟩ : ∃ v, v = c.val.toNat := ⟨_, rfl⟩
  obtain ⟨w, hw⟩ : ∃ w, w = d.val.toNat := ⟨_, rfl⟩
  have hvw : v < w := by rw [hv, hw]; exact toNat_lt_of_lt h
  have hbits := eq_sum_bits (v := v) (hv ▸ val_lt c)
  have hbits' := eq_sum_bits (v := w) (hw ▸ val_lt d)
  simp only [String.utf8EncodeChar, ← hv, ← hw]
  -- with more bytes the first one is larger; with as many, the first bits that differ decide
  split_ifs <;>
    simp (disch := omega) only [List.cons_append, List.nil_append, compare_cons_eq_lt] <;>
    omega

/-- **Texts are in the order of their bytes.** -/
theorem compare_encode (s t : Text) : compare (encode s) (encode t) = compare s t := by
  have hlt {c d : Char} (h : compare c d = .lt) : c < d := compareOfLessAndEq_eq_lt.1 h
  have hne (c : Char) (t : Text) : ∃ b bs, encode (c :: t) = b :: bs := by
    obtain ⟨b, bs, hb⟩ := List.exists_cons_of_ne_nil (String.utf8EncodeChar_ne_nil (c := c))
    exact ⟨b, bs ++ encode t, by rw [encode, List.flatMap_cons, hb]; rfl⟩
  induction s generalizing t with
  | nil =>
    cases t with
    | nil => rfl
    | cons d t =>
      obtain ⟨b, bs, hb⟩ := hne d t
      rw [hb]
      rfl
  | cons c s ih =>
    cases t with
    | nil =>
      obtain ⟨b, bs, hb⟩ := hne c s
      rw [hb]
      rfl
    | cons d t =>
      rw [show compare (c :: s) (d :: t) = (compare c d).then (compare s t) from
        List.compareLex_cons_cons]
      simp only [encode, List.flatMap_cons]
      cases hcd : compare c d with
      | lt => exact compare_encodeChar (hlt hcd) _ _
      | eq =>
        obtain rfl := Std.compare_eq_iff_eq.1 hcd
        rw [compare_append]
        exact ih t
      | gt =>
        have hdc : compare d c = .lt := Std.OrientedCmp.lt_of_gt hcd
        exact Std.OrientedCmp.gt_of_lt (compare_encodeChar (hlt hdc) (encode t) (encode s))

end Utf8

end FileRoutes
