import Mathlib.Algebra.Order.Ring.Int
import Monkey.Integer

/-!
# Checked powers

A power is computed by squaring, and every product on the way is checked. None of them is too large
unless the power itself is: a product that is multiplied into the result is no further from zero
than the power, on the same side of it, and a square is squared or multiplied once more. The one
number that is too large on one side of zero only, 2⁶³, is no square.
-/

set_option autoImplicit false

namespace Monkey.Integer

/-! ## Products out of range -/

/-- A number out of range stays so if it is multiplied by a positive one. -/
theorem not_inRange_mul {n factor : Int} (outside : ¬InRange n) (positive : 0 < factor) :
    ¬InRange (n * factor) := by
  unfold InRange smallest largest at *
  rcases lt_or_ge n 0 with negative | nonneg
  · have further : n * factor ≤ n * 1 :=
      Int.mul_le_mul_of_nonpos_left negative.le positive
    omega
  · have further : n * 1 ≤ n * factor := Int.mul_le_mul_of_nonneg_left positive nonneg
    omega

/-- No square is the first number above the range: its root would lie between two integers. -/
theorem square_ne (base : Int) : base * base ≠ largest + 1 := by
  intro isSquare
  have magnitude : base.natAbs * base.natAbs = 9223372036854775808 := by
    rw [← Int.natAbs_mul, isSquare]
    rfl
  rcases Nat.lt_or_ge base.natAbs 3037000500 with small | large
  · have bound : base.natAbs * base.natAbs ≤ 3037000499 * 3037000499 :=
      Nat.mul_le_mul (Nat.le_of_lt_succ small) (Nat.le_of_lt_succ small)
    omega
  · have bound : 3037000500 * 3037000500 ≤ base.natAbs * base.natAbs := Nat.mul_le_mul large large
    omega

theorem largest_lt_square {base : Int} (outside : ¬InRange (base * base)) :
    largest + 1 < base * base := by
  have nonneg : 0 ≤ base * base := mul_self_nonneg base
  have notNext := square_ne base
  unfold InRange smallest largest at *
  omega

/-- A square out of range leaves every number but zero out of range. -/
theorem not_inRange_mul_square {base result : Int} (outside : ¬InRange (base * base))
    (nonzero : result ≠ 0) : ¬InRange (result * (base * base)) := by
  have large := largest_lt_square outside
  unfold InRange smallest largest at *
  rcases lt_or_gt_of_ne nonzero with negative | positive
  · have further : (base * base) * result ≤ (base * base) * (-1) :=
      Int.mul_le_mul_of_nonneg_left (by omega) (by omega)
    rw [mul_comm result]
    omega
  · have further : (base * base) * 1 ≤ (base * base) * result :=
      Int.mul_le_mul_of_nonneg_left positive (by omega)
    rw [mul_comm result]
    omega

/-! ## Rounds -/

/-- An exponent is taken apart into its last binary digit and the rest. -/
theorem pow_halves (base : Int) (exponent : Nat) :
    base ^ exponent = base ^ (exponent % 2) * (base * base) ^ (exponent / 2) := by
  rw [← pow_two, ← pow_mul, ← pow_add, Nat.mod_add_div]

theorem square_pow_pos {base : Int} (nonzero : base ≠ 0) (exponent : Nat) :
    0 < (base * base) ^ exponent :=
  pow_pos (mul_self_pos.mpr nonzero) exponent

/-- Squaring the base before the last digit is used up. If the square is out of range, the power is,
since the square is still to be multiplied into the result. -/
theorem not_inRange_of_square {base result : Int} {exponent : Nat} (more : exponent ≠ 0)
    (outside : ¬InRange (base * base)) (nonzero : result = 0 → base = 0) :
    ¬InRange (result * (base * base) ^ exponent) := by
  have notZero : base ≠ 0 := by
    rintro rfl
    exact outside (by decide)
  obtain ⟨others, rfl⟩ := Nat.exists_eq_succ_of_ne_zero more
  rw [pow_succ', ← mul_assoc]
  exact not_inRange_mul (not_inRange_mul_square outside (mt nonzero notZero))
    (square_pow_pos notZero others)

/-- A round multiplies the base into the result if the last digit of the exponent is one, and
squares it for the digits before. -/
theorem powRounds_succ (rounds : Nat) {result base : Int} {exponent : Nat}
    (inRange : InRange result) (more : exponent ≠ 0) :
    powRounds (rounds + 1) result base exponent =
      (checked (result * base ^ (exponent % 2)) "^").bind fun product =>
        if exponent / 2 = 0 then .ok product
        else (checked (base * base) "^").bind fun square =>
          powRounds rounds product square (exponent / 2) := by
  rw [powRounds, if_neg more]
  rcases Nat.mod_two_eq_zero_or_one exponent with even | odd
  · rw [if_neg (by omega), even, pow_zero, mul_one, checked_of_inRange inRange]
    rfl
  · rw [if_pos odd, odd, pow_one]
    rfl

theorem inRange_mul_zero_pow {result : Int} (inRange : InRange result) (exponent : Nat) :
    InRange (result * 0 ^ exponent) := by
  cases exponent with
  | zero => rwa [pow_zero, mul_one]
  | succ others =>
      rw [pow_succ, mul_zero, mul_zero]
      decide

/-- The rounds that are left give the power that is left, times the result so far, if that is in
range, and fail if it is not. -/
theorem powRounds_eq (rounds : Nat) {result base : Int} {exponent : Nat}
    (enough : exponent < 2 ^ rounds) (inRange : InRange result)
    (nonzero : result = 0 → base = 0) :
    powRounds rounds result base exponent = checked (result * base ^ exponent) "^" := by
  induction rounds generalizing result base exponent with
  | zero =>
      obtain rfl : exponent = 0 := by omega
      rw [pow_zero, mul_one, checked_of_inRange inRange]
      rfl
  | succ rounds ih =>
      by_cases ended : exponent = 0
      · rw [powRounds, if_pos ended, ended, pow_zero, mul_one, checked_of_inRange inRange]
      rw [powRounds_succ rounds inRange ended, pow_halves base exponent, ← mul_assoc]
      have productNonzero : result * base ^ (exponent % 2) = 0 → base = 0 := by
        intro isZero
        rcases mul_eq_zero.mp isZero with isZero | isZero
        · exact nonzero isZero
        · exact eq_zero_of_pow_eq_zero isZero
      have productOfZero : base = 0 → InRange (result * base ^ (exponent % 2)) := by
        rintro rfl
        exact inRange_mul_zero_pow inRange _
      generalize result * base ^ (exponent % 2) = product at productNonzero productOfZero ⊢
      by_cases fits : InRange product
      · rw [checked_of_inRange fits, Except.bind]
        split
        · next last =>
          rw [last, pow_zero, mul_one, checked_of_inRange fits]
        · next before =>
          by_cases squareFits : InRange (base * base)
          · rw [checked_of_inRange squareFits, Except.bind]
            exact ih (by omega) fits fun isZero => by rw [productNonzero isZero, mul_zero]
          · have tooLarge := not_inRange_of_square before squareFits productNonzero
            rw [checked_of_not_inRange squareFits, checked_of_not_inRange tooLarge, Except.bind]
      · have notZero : base ≠ 0 := mt productOfZero fits
        have tooLarge := not_inRange_mul fits (square_pow_pos notZero (exponent / 2))
        rw [checked_of_not_inRange fits, checked_of_not_inRange tooLarge, Except.bind]

theorem inRange_iff (n : Int) : InRange n ↔ -2 ^ 63 ≤ n ∧ n ≤ 2 ^ 63 - 1 := Iff.rfl

/-- Powers are exact. With an exponent that is not negative, the power is the result if it is an
integer of 64 bits, and there is an overflow if it is not. So no product on the way is ever too
large for a power that is not. -/
theorem pow_exact (base : Int) {exponent : Int} (nonneg : 0 ≤ exponent) :
    let power := base ^ exponent.toNat
    (-2 ^ 63 ≤ power ∧ power ≤ 2 ^ 63 - 1 → pow base exponent = .ok power) ∧
    (¬(-2 ^ 63 ≤ power ∧ power ≤ 2 ^ 63 - 1) → pow base exponent = .error (.overflow "^")) := by
  intro power
  have enough : exponent.toNat < 2 ^ (exponent.toNat.log2 + 1) := Nat.lt_log2_self
  have computed : pow base exponent = checked power "^" := by
    have nonzero : (1 : Int) = 0 → base = 0 := fun isZero => absurd isZero one_ne_zero
    rw [pow, if_neg (by omega), powRounds_eq _ enough (by decide) nonzero, one_mul]
  rw [computed, ← inRange_iff]
  exact ⟨fun inRange => checked_of_inRange inRange "^",
    fun outside => checked_of_not_inRange outside "^"⟩

/-- The smallest integer is a power, with an exponent of only ones; the number above the largest one
is the same power of the opposite base. -/
theorem pow_exact_smallest :
    0 ≤ (63 : Int) ∧ pow (-2) 63 = .ok smallest ∧ pow 2 63 = .error (.overflow "^") := by
  have nonneg : 0 ≤ (63 : Int) := by decide
  exact ⟨nonneg, (pow_exact (-2) nonneg).1 (by decide), (pow_exact 2 nonneg).2 (by decide)⟩

end Monkey.Integer
