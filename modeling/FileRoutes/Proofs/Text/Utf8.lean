import FileRoutes.Text.Utf8
import Mathlib.Tactic.SplitIfs

/-!
# Reading UTF-8 that was written

The bytes of a character take the reading machine from between characters back to between
characters, and complete that character alone (`Utf8.readings_encodeChar`).  So a text is read
back from its bytes, strictly (`Utf8.decode?_encode`) and whatever bytes stand behind it.

Nothing else completes a character (`Utf8.exists_encodeChar_append`), so only the bytes of a text
are read as that text (`Utf8.decode?_eq_some`), and reading with losses comes upon no character
whose bytes are not there (`Utf8.encodeChar_infix_of_mem_decodeLossy`).
-/

namespace FileRoutes

namespace Utf8

/-! ### First bytes -/

theorem lead_two : ∀ n < 32, 2 ≤ n → lead (n + 0xC0) = some (.inside 0 n 0x80 0xBF) := by
  decide

theorem lead_three : ∀ n < 16, lead (n + 0xE0) =
    some (.inside 1 n (if n = 0 then 0xA0 else 0x80) (if n = 13 then 0x9F else 0xBF)) := by
  decide

theorem lead_four : ∀ n < 5, lead (n + 0xF0) =
    some (.inside 2 n (if n = 0 then 0x90 else 0x80) (if n = 4 then 0x8F else 0xBF)) := by
  decide

/-- A byte that announces a character moves the machine into it. -/
theorem readings_lead {n : Nat} {s : State} (hn : n < 256) (h80 : 0x80 ≤ n) (h : lead n = some s)
    (bs : Bytes) : readings .start (UInt8.ofNat n :: bs) = readings s bs := by
  have hb : (UInt8.ofNat n).toNat = n := by simp; omega
  simp only [readings, step, stepStart, hb, h, if_neg (Nat.not_lt.2 h80), List.nil_append]

theorem readings_ascii {n : Nat} (h : n < 0x80) (bs : Bytes) :
    readings .start (UInt8.ofNat n :: bs) = some (Char.ofNat n) :: readings .start bs := by
  have hb : (UInt8.ofNat n).toNat = n := by simp; omega
  simp only [readings, step, stepStart, hb, if_pos h, List.singleton_append]

/-! ### Further bytes -/

section Inside

variable {more value low high n : Nat}

/-- A further byte adds its six bits. -/
theorem readings_more (hl : low ≤ n % 64 + 0x80) (hh : n % 64 + 0x80 ≤ high) (bs : Bytes) :
    readings (.inside (more + 1) value low high) (UInt8.ofNat (n % 64 + 0x80) :: bs) =
      readings (.inside more (value * 64 + n % 64) 0x80 0xBF) bs := by
  have hb : (UInt8.ofNat (n % 64 + 0x80)).toNat = n % 64 + 0x80 := by simp; omega
  simp only [readings, step, hb, hl, hh, and_self, if_true, Nat.add_sub_cancel, List.nil_append]

/-- The last byte completes the character. -/
theorem readings_last (hl : low ≤ n % 64 + 0x80) (hh : n % 64 + 0x80 ≤ high) (bs : Bytes) :
    readings (.inside 0 value low high) (UInt8.ofNat (n % 64 + 0x80) :: bs) =
      some (Char.ofNat (value * 64 + n % 64)) :: readings .start bs := by
  have hb : (UInt8.ofNat (n % 64 + 0x80)).toNat = n % 64 + 0x80 := by simp; omega
  simp only [readings, step, hb, hl, hh, and_self, if_true, Nat.add_sub_cancel,
    List.singleton_append]

end Inside

/-! ### Characters and texts -/

theorem toNat_ofNat_of_ascii {n : Nat} (h : n < 0x80) : (Char.ofNat n).toNat = n := by
  rw [Char.ofNat, dif_pos (.inl (by omega))]
  rfl

/-- Small characters are written as one byte. -/
theorem encode_ofNat_cons {n : Nat} (h : n < 0x80) (t : Text) :
    encode (Char.ofNat n :: t) = UInt8.ofNat n :: encode t := by
  simp only [encode, List.flatMap_cons, String.utf8EncodeChar, Char.toNat_val,
    toNat_ofNat_of_ascii h]
  rw [if_pos (by omega), List.singleton_append]

/-- The bytes of a character are read as that character, whatever follows. -/
theorem readings_encodeChar (c : Char) (bs : Bytes) :
    readings .start (String.utf8EncodeChar c ++ bs) = some c :: readings .start bs := by
  obtain ⟨v, hv⟩ : ∃ v, v = c.val.toNat := ⟨_, rfl⟩
  have hc : Char.ofNat v = c := by rw [hv]; exact Char.ofNat_toNat c
  -- scalar values: no surrogates, nothing above 0x10FFFF
  have hvalid : v < 0xD800 ∨ 0xDFFF < v ∧ v < 0x110000 := by rw [hv]; exact c.valid
  simp only [String.utf8EncodeChar, ← hv]
  -- one case for each number of bytes: a byte that announces them, then six bits from each
  split_ifs with h1 h2 h3
  · rw [List.singleton_append, readings_ascii (by omega), hc]
  · have hlead := lead_two (v / 64 % 32) (by omega) (by omega)
    rw [List.cons_append, readings_lead (by omega) (by omega) hlead, List.cons_append,
      readings_last (by omega) (by omega), List.nil_append,
      show v / 64 % 32 * 64 + v % 64 = v by omega, hc]
  · have hlead := lead_three (v / 4096 % 16) (by omega)
    rw [List.cons_append, readings_lead (by omega) (by omega) hlead, List.cons_append,
      readings_more (by split_ifs <;> omega) (by split_ifs <;> omega), List.cons_append,
      readings_last (by omega) (by omega), List.nil_append,
      show (v / 4096 % 16 * 64 + v / 64 % 64) * 64 + v % 64 = v by omega, hc]
  · have hlead := lead_four (v / 262144 % 8) (by omega)
    rw [List.cons_append, readings_lead (by omega) (by omega) hlead, List.cons_append,
      readings_more (by split_ifs <;> omega) (by split_ifs <;> omega), List.cons_append,
      readings_more (by omega) (by omega), List.cons_append,
      readings_last (by omega) (by omega), List.nil_append,
      show ((v / 262144 % 8 * 64 + v / 4096 % 64) * 64 + v / 64 % 64) * 64 + v % 64 = v by omega,
      hc]

theorem readings_encode (t : Text) (bs : Bytes) :
    readings .start (encode t ++ bs) = t.map some ++ readings .start bs := by
  induction t with
  | nil => rfl
  | cons c t ih =>
    rw [encode, List.flatMap_cons, List.append_assoc, readings_encodeChar, ← encode, ih,
      List.map_cons, List.cons_append]

/-- **A text is read back from its bytes.** -/
@[simp] theorem decode?_encode (t : Text) : decode? (encode t) = some t := by
  have h := readings_encode t []
  rw [List.append_nil] at h
  simp only [decode?, h, readings, List.append_nil, List.mapM_map, Function.comp_def, id]
  exact List.mapM_pure (m := Option) (l := t) (f := id) |>.trans (by simp)

/-! ### Nothing else is read -/

/-- A first byte announces one to three further bytes and limits the second one. -/
theorem lead_cases {n : Nat} {s : State} (h : lead n = some s) :
    (∃ k, 2 ≤ k ∧ k < 32 ∧ n = k + 0xC0 ∧ s = .inside 0 k 0x80 0xBF) ∨
      (∃ k < 16, n = k + 0xE0 ∧
        s = .inside 1 k (if k = 0 then 0xA0 else 0x80) (if k = 13 then 0x9F else 0xBF)) ∨
      ∃ k < 5, n = k + 0xF0 ∧
        s = .inside 2 k (if k = 0 then 0x90 else 0x80) (if k = 4 then 0x8F else 0xBF) := by
  have hrange : 0xC2 ≤ n ∧ n ≤ 0xF4 := by
    unfold lead at h
    split_ifs at h <;> omega
  by_cases h2 : n < 0xE0
  · have hlead := lead_two (n - 0xC0) (by omega) (by omega)
    rw [Nat.sub_add_cancel (by omega), h] at hlead
    exact .inl ⟨n - 0xC0, by omega, by omega, by omega, Option.some.inj hlead⟩
  by_cases h3 : n < 0xF0
  · have hlead := lead_three (n - 0xE0) (by omega)
    rw [Nat.sub_add_cancel (by omega), h] at hlead
    exact .inr (.inl ⟨n - 0xE0, by omega, by omega, Option.some.inj hlead⟩)
  · have hlead := lead_four (n - 0xF0) (by omega)
    rw [Nat.sub_add_cancel (by omega), h] at hlead
    exact .inr (.inr ⟨n - 0xF0, by omega, by omega, Option.some.inj hlead⟩)

/-- A character that is begun goes on with a byte that fits. -/
theorem exists_further_byte {more value low high : Nat} {bs : Bytes} {c : Char}
    {rs : List (Option Char)} (hlow : 0x80 ≤ low) (hhigh : high ≤ 0xBF)
    (h : readings (.inside more value low high) bs = some c :: rs) :
    ∃ n bs', low ≤ n % 64 + 0x80 ∧ n % 64 + 0x80 ≤ high ∧
      bs = UInt8.ofNat (n % 64 + 0x80) :: bs' := by
  cases bs with
  | nil => simp [readings] at h
  | cons b bs =>
    rw [readings, step] at h
    split_ifs at h with hb
    · refine ⟨b.toNat - 0x80, bs, by omega, by omega, ?_⟩
      rw [show (b.toNat - 0x80) % 64 + 0x80 = b.toNat by omega, UInt8.ofNat_toNat]
    · simp at h

theorem val_ofNat {v : Nat} (h : v < 0xD800 ∨ 0xDFFF < v ∧ v < 0x110000) :
    (Char.ofNat v).val.toNat = v := by
  rw [Char.ofNat, dif_pos h]
  rfl

theorem encodeChar_one {n : Nat} (h : n < 0x80) :
    String.utf8EncodeChar (Char.ofNat n) = [UInt8.ofNat n] := by
  have h := encode_ofNat_cons h []
  rwa [encode, List.flatMap_cons, List.flatMap_nil, List.append_nil] at h

theorem encodeChar_two {k x : Nat} (hk : 2 ≤ k) (hk' : k < 32) (hx : x < 64) :
    String.utf8EncodeChar (Char.ofNat (k * 64 + x)) =
      [UInt8.ofNat (k + 0xC0), UInt8.ofNat (x + 0x80)] := by
  obtain ⟨v, hv⟩ : ∃ v, v = k * 64 + x := ⟨_, rfl⟩
  simp only [← hv, String.utf8EncodeChar, val_ofNat (v := v) (by omega)]
  rw [if_neg (by omega), if_pos (by omega), show v / 64 % 32 = k by omega,
    show v % 64 = x by omega]

/-- The second byte keeps out overlong forms and surrogates. -/
theorem encodeChar_three {k x y : Nat} (hk : k < 16) (hx : x < 64) (hy : y < 64)
    (hlow : k = 0 → 0x20 ≤ x) (hhigh : k = 13 → x < 0x20) :
    String.utf8EncodeChar (Char.ofNat ((k * 64 + x) * 64 + y)) =
      [UInt8.ofNat (k + 0xE0), UInt8.ofNat (x + 0x80), UInt8.ofNat (y + 0x80)] := by
  obtain ⟨v, hv⟩ : ∃ v, v = (k * 64 + x) * 64 + y := ⟨_, rfl⟩
  simp only [← hv, String.utf8EncodeChar, val_ofNat (v := v) (by omega)]
  rw [if_neg (by omega), if_neg (by omega), if_pos (by omega), show v / 4096 % 16 = k by omega,
    show v / 64 % 64 = x by omega, show v % 64 = y by omega]

/-- The second byte keeps out overlong forms and numbers that are too large. -/
theorem encodeChar_four {k x y z : Nat} (hk : k < 5) (hx : x < 64) (hy : y < 64) (hz : z < 64)
    (hlow : k = 0 → 0x10 ≤ x) (hhigh : k = 4 → x < 0x10) :
    String.utf8EncodeChar (Char.ofNat (((k * 64 + x) * 64 + y) * 64 + z)) =
      [UInt8.ofNat (k + 0xF0), UInt8.ofNat (x + 0x80), UInt8.ofNat (y + 0x80),
        UInt8.ofNat (z + 0x80)] := by
  obtain ⟨v, hv⟩ : ∃ v, v = ((k * 64 + x) * 64 + y) * 64 + z := ⟨_, rfl⟩
  simp only [← hv, String.utf8EncodeChar, val_ofNat (v := v) (by omega)]
  rw [if_neg (by omega), if_neg (by omega), if_neg (by omega), show v / 262144 % 8 = k by omega,
    show v / 4096 % 64 = x by omega, show v / 64 % 64 = y by omega, show v % 64 = z by omega]

/-- What is read as a character, and more, are the bytes of that character, and more. -/
theorem exists_encodeChar_append {bs : Bytes} {c : Char} {rs : List (Option Char)}
    (h : readings .start bs = some c :: rs) :
    ∃ bs', bs = String.utf8EncodeChar c ++ bs' ∧ readings .start bs' = rs := by
  have hlt (n : Nat) : n % 64 < 64 := Nat.mod_lt n (by decide)
  cases bs with
  | nil => cases h
  | cons b bs =>
    have hb : UInt8.ofNat b.toNat = b := UInt8.ofNat_toNat
    rw [← hb] at h ⊢
    by_cases h80 : b.toNat < 0x80
    · rw [readings_ascii h80, List.cons.injEq, Option.some.injEq] at h
      exact ⟨bs, by rw [← h.1, encodeChar_one h80]; rfl, h.2⟩
    cases hlead : lead b.toNat with
    | none =>
      rw [readings, step, stepStart, hb, if_neg h80, hlead] at h
      simp at h
    | some s =>
      rw [readings_lead b.toNat_lt (Nat.not_lt.1 h80) hlead] at h
      -- each further byte leads on, and the last one completes the character
      obtain ⟨k, hk, hk', hn, rfl⟩ | ⟨k, hk, hn, rfl⟩ | ⟨k, hk, hn, rfl⟩ := lead_cases hlead
      · obtain ⟨x, bs, hl, hh, rfl⟩ := exists_further_byte (by omega) (by omega) h
        rw [readings_last hl hh, List.cons.injEq, Option.some.injEq] at h
        exact ⟨bs, by rw [← h.1, encodeChar_two hk hk' (hlt x), hn]; rfl, h.2⟩
      · obtain ⟨x, bs, hl, hh, rfl⟩ :=
          exists_further_byte (by split_ifs <;> omega) (by split_ifs <;> omega) h
        rw [readings_more hl hh] at h
        obtain ⟨y, bs, hl', hh', rfl⟩ := exists_further_byte (by omega) (by omega) h
        rw [readings_last hl' hh', List.cons.injEq, Option.some.injEq] at h
        have hchar := encodeChar_three hk (hlt x) (hlt y)
          (fun h0 => by rw [if_pos h0] at hl; omega) (fun h13 => by rw [if_pos h13] at hh; omega)
        exact ⟨bs, by rw [← h.1, hchar, hn]; rfl, h.2⟩
      · obtain ⟨x, bs, hl, hh, rfl⟩ :=
          exists_further_byte (by split_ifs <;> omega) (by split_ifs <;> omega) h
        rw [readings_more hl hh] at h
        obtain ⟨y, bs, hl', hh', rfl⟩ := exists_further_byte (by omega) (by omega) h
        rw [readings_more hl' hh'] at h
        obtain ⟨z, bs, hl'', hh'', rfl⟩ := exists_further_byte (by omega) (by omega) h
        rw [readings_last hl'' hh'', List.cons.injEq, Option.some.injEq] at h
        have hchar := encodeChar_four hk (hlt x) (hlt y) (hlt z)
          (fun h0 => by rw [if_pos h0] at hl; omega) (fun h4 => by rw [if_pos h4] at hh; omega)
        exact ⟨bs, by rw [← h.1, hchar, hn]; rfl, h.2⟩

/-- A character that is begun is read as something. -/
theorem readings_inside_ne_nil {more value low high : Nat} (bs : Bytes) :
    readings (.inside more value low high) bs ≠ [] := by
  induction bs generalizing more value low high with
  | nil => simp [readings]
  | cons b bs ih =>
    rw [readings, step]
    split_ifs
    · cases more with
      | zero => simp
      | succ more => simpa using ih
    · simp

theorem eq_nil_of_readings {bs : Bytes} (h : readings .start bs = []) : bs = [] := by
  cases bs with
  | nil => rfl
  | cons b bs =>
    rw [readings, step, stepStart] at h
    split_ifs at h
    · cases h
    · cases hlead : lead b.toNat with
      | none =>
        rw [hlead] at h
        exact absurd h (List.cons_ne_nil _ _)
      | some s =>
        rw [hlead] at h
        obtain ⟨_, -, -, -, rfl⟩ | ⟨_, -, -, rfl⟩ | ⟨_, -, -, rfl⟩ := lead_cases hlead
        · exact absurd h (readings_inside_ne_nil bs)
        · exact absurd h (readings_inside_ne_nil bs)
        · exact absurd h (readings_inside_ne_nil bs)

theorem encode_of_readings {bs : Bytes} {t : Text} (h : readings .start bs = t.map some) :
    encode t = bs := by
  induction t generalizing bs with
  | nil => exact (eq_nil_of_readings h).symm
  | cons c t ih =>
    obtain ⟨bs', rfl, h'⟩ := exists_encodeChar_append h
    rw [encode, List.flatMap_cons, ← encode, ih h']

theorem mapM_id_eq_some {l : List (Option Char)} {t : Text} :
    l.mapM id = some t ↔ l = t.map some := by
  induction l generalizing t with
  | nil => cases t <;> simp
  | cons x l ih =>
    rw [List.mapM_cons, Option.bind_eq_bind, Option.bind_eq_some_iff]
    cases x with
    | none => cases t <;> simp
    | some c =>
      cases t with
      | nil => simp [Option.bind_eq_some_iff]
      | cons c' t => simpa [Option.bind_eq_some_iff, ih] using and_comm

/-- After each reading, reading goes on between two characters. -/
theorem exists_readings_tail {s : State} {bs : Bytes} {r : Option Char} {rs : List (Option Char)}
    (h : readings s bs = r :: rs) : ∃ bs', bs' <:+ bs ∧ readings .start bs' = rs := by
  induction bs generalizing s with
  | nil =>
    cases s with
    | start => cases h
    | inside =>
      cases h
      exact ⟨[], List.suffix_refl _, rfl⟩
  | cons b bs ih =>
    have hskip {s' : State} (h : readings s' bs = r :: rs) :
        ∃ bs', bs' <:+ b :: bs ∧ readings .start bs' = rs := by
      obtain ⟨bs', hsuffix, h⟩ := ih h
      exact ⟨bs', hsuffix.trans (List.suffix_cons b bs), h⟩
    cases s with
    | start =>
      rw [readings, step, stepStart] at h
      split_ifs at h
      · cases h
        exact ⟨bs, List.suffix_cons b bs, rfl⟩
      · cases hlead : lead b.toNat with
        | none =>
          rw [hlead] at h
          cases h
          exact ⟨bs, List.suffix_cons b bs, rfl⟩
        | some s' =>
          rw [hlead] at h
          exact hskip h
    | inside more value low high =>
      rw [readings, step] at h
      split_ifs at h
      · cases more with
        | zero =>
          cases h
          exact ⟨bs, List.suffix_cons b bs, rfl⟩
        | succ more => exact hskip h
      · -- the byte that does not fit is read once more
        cases h
        exact ⟨b :: bs, List.suffix_refl _, rfl⟩

/-- The bytes of a character that is read stand together among those it is read from. -/
theorem encodeChar_infix_of_mem {bs : Bytes} {c : Char} (h : some c ∈ readings .start bs) :
    String.utf8EncodeChar c <:+: bs := by
  generalize hrs : readings .start bs = rs at h
  induction rs generalizing bs with
  | nil => cases h
  | cons r rs ih =>
    obtain rfl | h := List.mem_cons.1 h
    · obtain ⟨bs', rfl, -⟩ := exists_encodeChar_append hrs
      exact (List.prefix_append _ _).isInfix
    · obtain ⟨bs', hsuffix, hrs'⟩ := exists_readings_tail hrs
      exact (ih hrs' h).trans hsuffix.isInfix

theorem encodeChar_infix_of_mem_decodeLossy {bs : Bytes} {c : Char} (hc : c ≠ '\uFFFD')
    (h : c ∈ decodeLossy bs) : String.utf8EncodeChar c <:+: bs := by
  obtain ⟨r, hr, hrc⟩ := List.mem_map.1 h
  cases r with
  | none => exact absurd hrc.symm hc
  | some c' =>
    obtain rfl : c' = c := hrc
    exact encodeChar_infix_of_mem hr

/-- **Only the bytes of a text are read as that text.** -/
theorem decode?_eq_some {bs : Bytes} {t : Text} : decode? bs = some t ↔ bs = encode t := by
  constructor
  · intro h
    exact (encode_of_readings (mapM_id_eq_some.1 h)).symm
  · rintro rfl
    exact decode?_encode t

end Utf8

end FileRoutes
