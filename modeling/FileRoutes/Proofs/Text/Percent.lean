import FileRoutes.Proofs.Text.Utf8
import FileRoutes.Text.Percent

/-!
# Percent-encoded text

`Percent.encode` loses nothing (`Percent.decode?_encode`), so two texts are never written alike
(`Percent.encode_injective`).  Only the empty text is written as the empty segment
(`Percent.encode_eq_nil`) or read from it (`Percent.decode?_eq_some_nil`).

What is written consists of unreserved characters and escapes (`Percent.Escaped`,
`Percent.escaped_encode`).  So it holds no `/` and stays within one path segment
(`Percent.notMem_encode`).
-/

namespace FileRoutes

namespace Hex

/-- The code point of an upper-case digit. -/
def upperCode (n : Nat) : Nat := if n < 10 then 0x30 + n else 0x37 + n

theorem upper_eq (n : Nat) : upper n = Char.ofNat (upperCode n) := rfl

theorem upperCode_lt {n : Nat} (h : n < 16) : upperCode n < 0x80 := by
  unfold upperCode; split_ifs <;> omega

theorem value?_upper : ∀ n < 16, value? (upper n) = some n := by decide

end Hex

namespace Percent

/-- The byte of an upper-case digit has the digit's value. -/
theorem digit?_upperCode {n : Nat} (h : n < 16) :
    digit? (UInt8.ofNat (Hex.upperCode n)) = some n := by
  have hlt := Hex.upperCode_lt h
  have hb : (UInt8.ofNat (Hex.upperCode n)).toNat = Hex.upperCode n := by simp; omega
  rw [digit?, hb, ← Hex.upper_eq, Hex.value?_upper n h]

/-! ### One byte -/

theorem isUnreserved_iff {b : UInt8} : isUnreserved b = true ↔
    (0x30 ≤ b.toNat ∧ b.toNat ≤ 0x39) ∨ (0x41 ≤ b.toNat ∧ b.toNat ≤ 0x5A) ∨
      (0x61 ≤ b.toNat ∧ b.toNat ≤ 0x7A) ∨ b.toNat = 0x2D ∨ b.toNat = 0x2E ∨ b.toNat = 0x5F ∨
      b.toNat = 0x7E := by
  simp [isUnreserved, or_assoc]

theorem decodeBytes_cons_of_ne {b : UInt8} (h : b ≠ 0x25) (bs : Bytes) :
    decodeBytes (b :: bs) = b :: decodeBytes bs := by
  rw [decodeBytes]
  rintro _ _ _ rfl
  exact fun _ => h rfl

theorem decodeBytes_escape {a b : UInt8} {x y : Nat} (ha : digit? a = some x)
    (hb : digit? b = some y) (bs : Bytes) :
    decodeBytes (0x25 :: a :: b :: bs) = UInt8.ofNat (x * 16 + y) :: decodeBytes bs := by
  rw [decodeBytes, ha, hb]

/-- The written form of a byte stands for that byte, whatever follows. -/
theorem decodeBytes_encodeByte (b : UInt8) (t : Text) :
    decodeBytes (Utf8.encode (encodeByte b ++ t)) = b :: decodeBytes (Utf8.encode t) := by
  have hlt := b.toNat_lt
  unfold encodeByte
  split_ifs with h
  · rw [isUnreserved_iff] at h
    have hb : b ≠ 0x25 := by
      rintro rfl
      revert h
      decide
    rw [List.singleton_append, Utf8.encode_ofNat_cons (by omega), UInt8.ofNat_toNat,
      decodeBytes_cons_of_ne hb]
  · have hhi : b.toNat / 16 < 16 := by omega
    have hlo : b.toNat % 16 < 16 := by omega
    rw [Hex.upper_eq, Hex.upper_eq]
    simp only [List.cons_append, List.nil_append]
    rw [show '%' = Char.ofNat 0x25 from rfl, Utf8.encode_ofNat_cons (by omega),
      Utf8.encode_ofNat_cons (Hex.upperCode_lt hhi), Utf8.encode_ofNat_cons (Hex.upperCode_lt hlo)]
    rw [show UInt8.ofNat 0x25 = 0x25 from rfl,
      decodeBytes_escape (digit?_upperCode hhi) (digit?_upperCode hlo),
      show b.toNat / 16 * 16 + b.toNat % 16 = b.toNat by omega, UInt8.ofNat_toNat]

/-! ### Texts -/

theorem decodeBytes_flatMap_encodeByte (bs : Bytes) :
    decodeBytes (Utf8.encode (bs.flatMap encodeByte)) = bs := by
  induction bs with
  | nil => rfl
  | cons b bs ih => rw [List.flatMap_cons, decodeBytes_encodeByte, ih]

/-- **A text is read back from its written form.** -/
@[simp] theorem decode?_encode (t : Text) : decode? (encode t) = some t := by
  rw [decode?, encode, decodeBytes_flatMap_encodeByte, Utf8.decode?_encode]

/-- Two texts are not written alike. -/
theorem encode_injective : Function.Injective encode := by
  intro t u h
  have hread := congrArg decode? h
  rwa [decode?_encode, decode?_encode, Option.some.injEq] at hread

@[simp] theorem encode_eq_nil {t : Text} : encode t = [] ↔ t = [] :=
  encode_injective.eq_iff' rfl

theorem decodeBytes_eq_nil {bs : Bytes} : decodeBytes bs = [] ↔ bs = [] := by
  refine ⟨fun h => ?_, by rintro rfl; rfl⟩
  unfold decodeBytes at h
  split at h
  · rfl
  · split at h <;> cases h
  · cases h

/-- Nothing but the empty text is read as the empty text. -/
theorem decode?_eq_some_nil {t : Text} : decode? t = some [] ↔ t = [] := by
  refine ⟨fun h => ?_, by rintro rfl; rfl⟩
  have hbytes : Utf8.encode t = [] := decodeBytes_eq_nil.1 (Utf8.decode?_eq_some.1 h)
  have hread := Utf8.decode?_encode t
  rw [hbytes] at hread
  exact (Option.some.inj hread).symm

/-! ### The characters of a written form -/

/-- A character that is written as itself: a letter or a digit, `-`, `_`, `.` or `~`. -/
def isUnreservedChar (c : Char) : Bool := c.isAlphanum || ['-', '_', '.', '~'].contains c

/-- A digit of an escape: `0` to `9` or `A` to `F`. -/
def isEscapeDigit (c : Char) : Bool := c.isDigit || ('A' ≤ c && c ≤ 'F')

/-- The text consists of unreserved characters and escapes `%XX`. -/
inductive Escaped : Text → Prop where
  | nil : Escaped []
  | unreserved {c : Char} {t : Text} : isUnreservedChar c = true → Escaped t → Escaped (c :: t)
  | escape {a b : Char} {t : Text} : isEscapeDigit a = true → isEscapeDigit b = true →
      Escaped t → Escaped ('%' :: a :: b :: t)

theorem isUnreservedChar_ofNat : ∀ n < 0x80, isUnreserved (UInt8.ofNat n) = true →
    isUnreservedChar (Char.ofNat n) = true := by
  decide

theorem isEscapeDigit_upper : ∀ n < 16, isEscapeDigit (Hex.upper n) = true := by decide

theorem escaped_encodeByte_append (b : UInt8) {t : Text} (h : Escaped t) :
    Escaped (encodeByte b ++ t) := by
  have hlt := b.toNat_lt
  unfold encodeByte
  split_ifs with hb
  · have hascii : b.toNat < 0x80 := by
      have := isUnreserved_iff.1 hb
      omega
    exact .unreserved (isUnreservedChar_ofNat _ hascii (by rwa [UInt8.ofNat_toNat])) h
  · exact .escape (isEscapeDigit_upper _ (by omega)) (isEscapeDigit_upper _ (by omega)) h

/-- **What is written consists of unreserved characters and escapes.** -/
theorem escaped_encode (t : Text) : Escaped (encode t) := by
  unfold encode
  induction Utf8.encode t with
  | nil => exact .nil
  | cons b bs ih => exact escaped_encodeByte_append b ih

theorem Escaped.mem {t : Text} (h : Escaped t) {c : Char} (hc : c ∈ t) :
    c = '%' ∨ isUnreservedChar c = true ∨ isEscapeDigit c = true := by
  induction h with
  | nil => cases hc
  | unreserved hu _ ih =>
    obtain rfl | hc := List.mem_cons.1 hc
    · exact .inr (.inl hu)
    · exact ih hc
  | escape ha hb _ ih =>
    simp only [List.mem_cons] at hc
    obtain rfl | rfl | rfl | hc := hc
    · exact .inl rfl
    · exact .inr (.inr ha)
    · exact .inr (.inr hb)
    · exact ih hc

/-- The characters that would change what a path means are not written. -/
theorem notMem_encode {c : Char} (h : c ∈ ['/', '[', ']', '?', '#']) (t : Text) : c ∉ encode t := by
  intro hc
  have hwritten := (escaped_encode t).mem hc
  simp only [List.mem_cons, List.not_mem_nil, or_false] at h
  obtain rfl | rfl | rfl | rfl | rfl := h <;> revert hwritten <;> decide

end Percent

end FileRoutes
