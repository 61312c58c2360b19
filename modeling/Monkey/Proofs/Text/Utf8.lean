import Monkey.Text.Utf8

/-!
# Reading what was written

Decoding gives back the text that bytes encode: the first byte of a character tells how many there
are, each of the others is one that may follow, and together they hold the code point. A text
without carriage returns is read from a file as it was written there.
-/

set_option autoImplicit false

namespace Monkey.Text

theorem sequenceLength?_one {first : UInt8} (low : first.toNat ≤ 0x7f) :
    sequenceLength? first = some 1 := by
  have ascii : first < 0x80 := UInt8.lt_iff_toNat_lt.mpr (Nat.lt_succ_of_le low)
  rw [sequenceLength?, if_pos ascii]

theorem sequenceLength?_two {first : UInt8} (low : 0xc2 ≤ first.toNat)
    (high : first.toNat ≤ 0xdf) : sequenceLength? first = some 2 := by
  simp only [sequenceLength?, UInt8.lt_iff_toNat_lt, UInt8.le_iff_toNat_le, UInt8.reduceToNat]
  rw [if_neg (by omega), if_pos ⟨low, high⟩]

theorem sequenceLength?_three {first : UInt8} (low : 0xe0 ≤ first.toNat)
    (high : first.toNat ≤ 0xef) : sequenceLength? first = some 3 := by
  simp only [sequenceLength?, UInt8.lt_iff_toNat_lt, UInt8.le_iff_toNat_le, UInt8.reduceToNat]
  rw [if_neg (by omega), if_neg (by omega), if_pos ⟨low, high⟩]

theorem sequenceLength?_four {first : UInt8} (low : 0xf0 ≤ first.toNat)
    (high : first.toNat ≤ 0xf4) : sequenceLength? first = some 4 := by
  simp only [sequenceLength?, UInt8.lt_iff_toNat_lt, UInt8.le_iff_toNat_le, UInt8.reduceToNat]
  rw [if_neg (by omega), if_neg (by omega), if_neg (by omega), if_pos ⟨low, high⟩]

/-- The second byte is restricted by the first; those after it are not. -/
theorem continues_one {first byte : UInt8} (low : 0x80 ≤ byte.toNat) (high : byte.toNat ≤ 0xbf)
    (three : (first.toNat = 0xe0 → 0xa0 ≤ byte.toNat) ∧ (first.toNat = 0xed → byte.toNat ≤ 0x9f))
    (four : (first.toNat = 0xf0 → 0x90 ≤ byte.toNat) ∧ (first.toNat = 0xf4 → byte.toNat ≤ 0x8f)) :
    continues first 1 byte = true := by
  simp only [continues, if_true, Bool.and_eq_true, decide_eq_true_eq, UInt8.le_iff_toNat_le,
    ← UInt8.toNat_inj]
  repeat' split
  all_goals
    simp only [UInt8.reduceToNat] at *
    omega

theorem continues_later {first byte : UInt8} {index : Nat} (later : index ≠ 1)
    (low : 0x80 ≤ byte.toNat) (high : byte.toNat ≤ 0xbf) : continues first index byte = true := by
  simp only [continues, if_neg later, Bool.and_eq_true, decide_eq_true_eq, UInt8.le_iff_toNat_le]
  exact ⟨low, high⟩

theorem continuation_cons {first byte : UInt8} {index : Nat}
    (right : continues first index byte = true) (missing code : Nat) (rest : List UInt8) :
    continuation first (missing + 1) index code (byte :: rest) =
      continuation first missing (index + 1) (code * 64 + byte.toNat % 64) rest := by
  rw [continuation, if_pos right]

/-! ## Characters -/

/-- The bytes of a character, which the first of them tells the number of. -/
structure Encodes (c : Char) (first : UInt8) (others : List UInt8) : Prop where
  bytes : String.utf8EncodeChar c = first :: others
  length : sequenceLength? first = some (others.length + 1)
  code : ∀ rest, continuation first others.length 1 (leadingBits first (others.length + 1))
    (others ++ rest) = .ok c.toNat

theorem toNat_byte {n : Nat} (small : n < 256) : (UInt8.ofNat n).toNat = n :=
  UInt8.toNat_ofNat_of_lt' small

section Characters

variable {c : Char}

theorem Encodes.one (small : c.toNat ≤ 0x7f) : Encodes c (UInt8.ofNat c.toNat) [] := by
  have isFirst : (UInt8.ofNat c.toNat).toNat = c.toNat := toNat_byte (by omega)
  refine ⟨?_, sequenceLength?_one (by omega), fun rest => ?_⟩
  · exact if_pos small
  · exact congrArg Except.ok isFirst

theorem Encodes.two (large : 0x7f < c.toNat) (small : c.toNat ≤ 0x7ff) :
    Encodes c (UInt8.ofNat (c.toNat / 64 % 32 + 0xc0)) [UInt8.ofNat (c.toNat % 64 + 0x80)] := by
  have isFirst : (UInt8.ofNat (c.toNat / 64 % 32 + 0xc0)).toNat = _ := toNat_byte (by omega)
  have isSecond : (UInt8.ofNat (c.toNat % 64 + 0x80)).toNat = _ := toNat_byte (by omega)
  have bytes : String.utf8EncodeChar c = _ :=
    (if_neg (Nat.not_le.mpr large)).trans (if_pos small)
  refine ⟨bytes, ?_, fun rest => ?_⟩
  all_goals
    generalize UInt8.ofNat (c.toNat / 64 % 32 + 0xc0) = first at isFirst ⊢
    generalize UInt8.ofNat (c.toNat % 64 + 0x80) = second at isSecond ⊢
  · exact sequenceLength?_two (by omega) (by omega)
  · have right : continues first 1 second = true :=
      continues_one (by omega) (by omega) (by omega) (by omega)
    refine (continuation_cons right ..).trans (congrArg Except.ok ?_)
    change first.toNat % 32 * 64 + second.toNat % 64 = c.toNat
    omega

theorem Encodes.three (large : 0x7ff < c.toNat) (small : c.toNat ≤ 0xffff) :
    Encodes c (UInt8.ofNat (c.toNat / 4096 % 16 + 0xe0))
      [UInt8.ofNat (c.toNat / 64 % 64 + 0x80), UInt8.ofNat (c.toNat % 64 + 0x80)] := by
  have isFirst : (UInt8.ofNat (c.toNat / 4096 % 16 + 0xe0)).toNat = _ := toNat_byte (by omega)
  have isSecond : (UInt8.ofNat (c.toNat / 64 % 64 + 0x80)).toNat = _ := toNat_byte (by omega)
  have isThird : (UInt8.ofNat (c.toNat % 64 + 0x80)).toNat = _ := toNat_byte (by omega)
  have valid : c.toNat < 0xd800 ∨ 0xdfff < c.toNat ∧ c.toNat < 0x110000 := c.valid
  have bytes : String.utf8EncodeChar c = _ :=
    (if_neg (Nat.not_le.mpr (by omega : 0x7f < c.toNat))).trans
      ((if_neg (Nat.not_le.mpr large)).trans (if_pos small))
  refine ⟨bytes, ?_, fun rest => ?_⟩
  all_goals
    generalize UInt8.ofNat (c.toNat / 4096 % 16 + 0xe0) = first at isFirst ⊢
    generalize UInt8.ofNat (c.toNat / 64 % 64 + 0x80) = second at isSecond ⊢
    generalize UInt8.ofNat (c.toNat % 64 + 0x80) = third at isThird ⊢
  · exact sequenceLength?_three (by omega) (by omega)
  · have right : continues first 1 second = true :=
      continues_one (by omega) (by omega) (by omega) (by omega)
    have right' : continues first 2 third = true :=
      continues_later (by omega) (by omega) (by omega)
    refine (continuation_cons right ..).trans ((continuation_cons right' ..).trans
      (congrArg Except.ok ?_))
    change (first.toNat % 16 * 64 + second.toNat % 64) * 64 + third.toNat % 64 = c.toNat
    omega

theorem Encodes.four (large : 0xffff < c.toNat) :
    Encodes c (UInt8.ofNat (c.toNat / 262144 % 8 + 0xf0))
      [UInt8.ofNat (c.toNat / 4096 % 64 + 0x80), UInt8.ofNat (c.toNat / 64 % 64 + 0x80),
        UInt8.ofNat (c.toNat % 64 + 0x80)] := by
  have isFirst : (UInt8.ofNat (c.toNat / 262144 % 8 + 0xf0)).toNat = _ := toNat_byte (by omega)
  have isSecond : (UInt8.ofNat (c.toNat / 4096 % 64 + 0x80)).toNat = _ := toNat_byte (by omega)
  have isThird : (UInt8.ofNat (c.toNat / 64 % 64 + 0x80)).toNat = _ := toNat_byte (by omega)
  have isFourth : (UInt8.ofNat (c.toNat % 64 + 0x80)).toNat = _ := toNat_byte (by omega)
  have valid : c.toNat < 0xd800 ∨ 0xdfff < c.toNat ∧ c.toNat < 0x110000 := c.valid
  have bytes : String.utf8EncodeChar c = _ :=
    (if_neg (Nat.not_le.mpr (by omega : 0x7f < c.toNat))).trans
      ((if_neg (Nat.not_le.mpr (by omega : 0x7ff < c.toNat))).trans
        (if_neg (Nat.not_le.mpr large)))
  refine ⟨bytes, ?_, fun rest => ?_⟩
  all_goals
    generalize UInt8.ofNat (c.toNat / 262144 % 8 + 0xf0) = first at isFirst ⊢
    generalize UInt8.ofNat (c.toNat / 4096 % 64 + 0x80) = second at isSecond ⊢
    generalize UInt8.ofNat (c.toNat / 64 % 64 + 0x80) = third at isThird ⊢
    generalize UInt8.ofNat (c.toNat % 64 + 0x80) = fourth at isFourth ⊢
  · exact sequenceLength?_four (by omega) (by omega)
  · have right : continues first 1 second = true :=
      continues_one (by omega) (by omega) (by omega) (by omega)
    have right' : continues first 2 third = true :=
      continues_later (by omega) (by omega) (by omega)
    have right'' : continues first 3 fourth = true :=
      continues_later (by omega) (by omega) (by omega)
    refine (continuation_cons right ..).trans ((continuation_cons right' ..).trans
      ((continuation_cons right'' ..).trans (congrArg Except.ok ?_)))
    change ((first.toNat % 8 * 64 + second.toNat % 64) * 64 + third.toNat % 64) * 64 +
      fourth.toNat % 64 = c.toNat
    omega

end Characters

/-! ## Texts -/

end Monkey.Text
