import Mathlib.Data.Rat.Floor
import Mathlib.Tactic.Linarith
import Monkey.Integer

/-!
# Division with a remainder

Division gives the rational quotient without its fraction, and a remainder is what that quotient
leaves of the dividend. Of all quotients of integers of 64 bits by others than zero, one is too
large: that of the smallest by -1. Remainders are never too large, but since they are computed from
quotients, the one of that division, which is zero, is not given.
-/

set_option autoImplicit false

namespace Monkey.Integer

/-- A rational number without its fraction. -/
def truncate (number : ℚ) : Int := if 0 ≤ number then ⌊number⌋ else ⌈number⌉

/-- What a division leaves of the dividend: less than the divisor, on the side of zero that the
dividend is on, and apart from the dividend by a multiple of the divisor. -/
structure IsRemainder (dividend divisor remainder : Int) : Prop where
  smaller : remainder.natAbs < divisor.natAbs
  side : remainder = 0 ∨ remainder.sign = dividend.sign
  divides : divisor ∣ dividend - remainder

/-! ## Quotients -/

theorem truncate_neg (number : ℚ) : truncate (-number) = -truncate number := by
  unfold truncate
  rcases lt_trichotomy number 0 with negative | rfl | positive
  · rw [if_pos (by linarith), if_neg (by linarith), Int.floor_neg]
  · simp
  · rw [if_neg (by linarith), if_pos positive.le, Int.ceil_neg]

theorem truncate_div_of_nonneg {left right : Int} (dividend : 0 ≤ left) (divisor : 0 ≤ right) :
    truncate (left / right) = left.tdiv right := by
  have nonneg : (0 : ℚ) ≤ left / right := by positivity
  rw [truncate, if_pos nonneg, Int.floor_div_cast_of_nonneg divisor, Int.floor_intCast,
    Int.tdiv_eq_ediv_of_nonneg dividend]

/-- The integer quotient is the rational one without its fraction. -/
theorem truncate_div (left right : Int) : truncate (left / right) = left.tdiv right := by
  have ofDivisor : ∀ left : Int, 0 ≤ left → truncate (left / right) = left.tdiv right := by
    intro left dividend
    rcases le_total 0 right with nonneg | nonpos
    · exact truncate_div_of_nonneg dividend nonneg
    · have opposite := truncate_div_of_nonneg dividend (Int.neg_nonneg_of_nonpos nonpos)
      rw [Int.cast_neg, div_neg, truncate_neg, Int.tdiv_neg] at opposite
      exact neg_inj.mp opposite
  rcases le_total 0 left with nonneg | nonpos
  · exact ofDivisor left nonneg
  · have opposite := ofDivisor (-left) (Int.neg_nonneg_of_nonpos nonpos)
    rw [Int.cast_neg, neg_div, truncate_neg, Int.neg_tdiv] at opposite
    exact neg_inj.mp opposite

/-- One quotient is out of range. -/
theorem inRange_tdiv_iff {left right : Int} (dividend : InRange left) (nonzero : right ≠ 0) :
    InRange (left.tdiv right) ↔ ¬(left = smallest ∧ right = -1) := by
  constructor
  · rintro inRange ⟨rfl, rfl⟩
    exact absurd inRange (by decide)
  · intro notExtreme
    unfold InRange smallest largest at *
    by_cases isOne : right = 1
    · rw [isOne, Int.tdiv_one]
      exact dividend
    by_cases isOpposite : right = -1
    · have opposite : left.tdiv right = -left := by rw [isOpposite, Int.tdiv_neg, Int.tdiv_one]
      omega
    · have large : 2 ≤ right.natAbs := by omega
      have half : (left.tdiv right).natAbs ≤ left.natAbs / 2 := by
        rw [Int.natAbs_tdiv]
        exact Nat.div_le_div_left large (by decide)
      omega

/-! ## Remainders -/

namespace IsRemainder

variable {left right remainder other : Int}

theorem nonneg (is : IsRemainder left right remainder) (dividend : 0 ≤ left) : 0 ≤ remainder := by
  rcases is.side with isZero | sameSign
  · exact isZero.ge
  · rw [← Int.sign_nonneg_iff, sameSign]
    exact Int.sign_nonneg_iff.mpr dividend

theorem nonpos (is : IsRemainder left right remainder) (dividend : left ≤ 0) : remainder ≤ 0 := by
  rcases is.side with isZero | sameSign
  · exact isZero.le
  · rw [← Int.sign_nonpos_iff, sameSign]
    exact Int.sign_nonpos_iff.mpr dividend

/-- What the integer quotient leaves is a remainder. -/
theorem tmod (left : Int) {right : Int} (nonzero : right ≠ 0) :
    IsRemainder left right (left.tmod right) where
  smaller := by
    rw [Int.natAbs_tmod]
    exact Nat.mod_lt _ (Int.natAbs_pos.mpr nonzero)
  side := by
    have sign := Int.sign_tmod left right
    split at sign
    · exact .inl (Int.sign_eq_zero_iff_zero.mp sign)
    · exact .inr sign
  divides := Int.dvd_self_sub_tmod

/-- Two remainders lie on the same side of zero, less than the divisor apart. -/
theorem unique (is : IsRemainder left right remainder) (isOther : IsRemainder left right other) :
    remainder = other := by
  have apart : right ∣ remainder - other := by
    have difference := dvd_sub isOther.divides is.divides
    rwa [sub_sub_sub_cancel_left] at difference
  have near : (remainder - other).natAbs < right.natAbs := by
    have smaller := is.smaller
    have otherSmaller := isOther.smaller
    rcases le_total 0 left with dividend | dividend
    · have side := is.nonneg dividend
      have otherSide := isOther.nonneg dividend
      omega
    · have side := is.nonpos dividend
      have otherSide := isOther.nonpos dividend
      omega
  have same := Int.eq_zero_of_dvd_of_natAbs_lt_natAbs apart near
  omega

theorem eq_tmod (is : IsRemainder left right remainder) : remainder = left.tmod right := by
  have nonzero : right ≠ 0 := by
    have smaller := is.smaller
    omega
  exact is.unique (tmod left nonzero)

theorem natAbs_le (is : IsRemainder left right remainder) : remainder.natAbs ≤ left.natAbs := by
  rw [is.eq_tmod, Int.natAbs_tmod]
  exact Nat.mod_le _ _

/-- A remainder is no further from zero than the dividend. -/
theorem inRange (is : IsRemainder left right remainder) (dividend : InRange left) :
    InRange remainder := by
  have bound := is.natAbs_le
  unfold InRange smallest largest at *
  rcases le_total 0 left with side | side
  · have sameSide := is.nonneg side
    omega
  · have sameSide := is.nonpos side
    omega

end IsRemainder

/-! ## The operators -/

theorem eq_of_checked {result n : Int} {operator : String}
    (passed : checked result operator = .ok n) : result = n := by
  unfold checked at passed
  split at passed
  · exact Except.ok.inj passed
  · cases passed

section Operators

variable {left right : Int} (nonzero : right ≠ 0)
include nonzero

theorem div_eq_checked : div left right = checked (truncate (left / right)) "/" := by
  rw [div, if_neg nonzero, truncate_div]

theorem mod_eq_checked :
    mod left right = (checked (truncate (left / right)) "/").map fun _ => left.tmod right := by
  rw [mod, if_neg nonzero, div_eq_checked nonzero, truncate_div]
  unfold checked
  split
  · have leaves : left - left.tdiv right * right = left.tmod right := by
      rw [Int.tdiv_mul_self, sub_sub_cancel]
    simp only [Except.map, leaves]
  · rfl

theorem mod_of_div {quotient : Int} (divided : div left right = .ok quotient) :
    mod left right = .ok (left.tmod right) := by
  rw [div_eq_checked nonzero] at divided
  rw [mod_eq_checked nonzero, divided]
  rfl

/-- The product of a quotient and its divisor lies between zero and the dividend, so neither it nor
its sum with the remainder, which is the dividend, overflows. -/
theorem add_mul_div (dividend : InRange left) {quotient : Int}
    (divided : div left right = .ok quotient) :
    (mul quotient right).bind (add · (left.tmod right)) = .ok left := by
  have isQuotient : quotient = left.tdiv right := by
    rw [div_eq_checked nonzero, truncate_div] at divided
    exact (eq_of_checked divided).symm
  have whole : left.tdiv right * right + left.tmod right = left := Int.tdiv_mul_add_tmod left right
  have remains := IsRemainder.tmod left nonzero
  have between : InRange (left.tdiv right * right) := by
    have further := remains.natAbs_le
    unfold InRange smallest largest at *
    rcases le_total 0 left with side | side
    · have sameSide := remains.nonneg side
      omega
    · have sameSide := remains.nonpos side
      omega
  rw [isQuotient, mul, checked_of_inRange between, Except.bind, add, whole,
    checked_of_inRange dividend]

end Operators

/-- Division is exact, and remainders are but for one. The quotient of an integer by another than
zero is the rational one without its fraction, and there is an overflow if that is out of range,
which it is for the smallest integer and -1 alone. There is one remainder to every division, and it
is in range; except for that one division it is what is given, and wherever the quotient is, the
quotient times the divisor plus the remainder is the dividend, without an overflow on the way. -/
theorem division_exact {left right : Int} (dividend : InRange left) (nonzero : right ≠ 0) :
    let quotient := truncate (left / right)
    (InRange quotient → div left right = .ok quotient) ∧
    (¬InRange quotient → div left right = .error (.overflow "/")) ∧
    (InRange quotient ↔ ¬(left = smallest ∧ right = -1)) ∧
    ∃ remainder, IsRemainder left right remainder ∧
      (∀ other, IsRemainder left right other → other = remainder) ∧ InRange remainder ∧
      (InRange quotient → mod left right = .ok remainder ∧
        (mul quotient right).bind (add · remainder) = .ok left) ∧
      (¬InRange quotient → remainder = 0 ∧ mod left right = .error (.overflow "/")) := by
  intro quotient
  have remains := IsRemainder.tmod left nonzero
  have onlyOne : InRange quotient ↔ ¬(left = smallest ∧ right = -1) := by
    rw [← inRange_tdiv_iff dividend nonzero, ← truncate_div]
  have divided : div left right = checked quotient "/" := div_eq_checked nonzero
  refine ⟨?_, ?_, onlyOne, left.tmod right, remains, fun _ is => is.unique remains,
    remains.inRange dividend, ?_, ?_⟩
  · intro inRange
    rw [divided, checked_of_inRange inRange]
  · intro outside
    rw [divided, checked_of_not_inRange outside]
  · intro inRange
    rw [checked_of_inRange inRange] at divided
    exact ⟨mod_of_div nonzero divided, add_mul_div nonzero dividend divided⟩
  · intro outside
    obtain ⟨rfl, rfl⟩ := not_not.mp (mt onlyOne.mpr outside)
    exact ⟨rfl, rfl⟩

/-- A negative dividend: the quotient is cut off toward zero and the remainder is negative. -/
theorem division_exact_negative :
    InRange (-17) ∧ (13 : Int) ≠ 0 ∧ div (-17) 13 = .ok (truncate ((-17 : Int) / (13 : Int))) ∧
      IsRemainder (-17) 13 (-4) ∧ mod (-17) 13 = .ok (-4) := by
  have dividend : InRange (-17) := by decide
  have nonzero : (13 : Int) ≠ 0 := by decide
  obtain ⟨divided, -, notExtreme, remainder, -, isOnly, -, remains, -⟩ :=
    division_exact dividend nonzero
  have inRange := notExtreme.mpr (by decide)
  have isRemainder : IsRemainder (-17) 13 (-4) := ⟨by decide, .inr rfl, by decide⟩
  obtain rfl := isOnly (-4) isRemainder
  exact ⟨dividend, nonzero, divided inRange, isRemainder, (remains inRange).1⟩

/-- The remainder of the smallest integer by -1 is zero, but what is given is the overflow of the
quotient. -/
theorem mod_smallest :
    InRange smallest ∧ InRange (-1) ∧ IsRemainder smallest (-1) 0 ∧ InRange 0 ∧
      mod smallest (-1) = .error (.overflow "/") :=
  ⟨by decide, by decide, ⟨by decide, .inl rfl, by decide⟩, by decide, rfl⟩

end Monkey.Integer
