import Carnatic.Scalar
import Mathlib.Data.Rat.Floor
import Mathlib.Algebra.Order.Field.Rat
import Mathlib.Tactic.Ring

/-
  Exact arithmetic.

  Read over the rationals, the operations of a program's
  numbers are those of arithmetic: the square-and-multiply
  loop is a power, and truncation goes to the floor or to the
  ceiling, whichever is nearer to zero.

  Main declarations:
    * `Scalar.clampUnit_eq`
    * `Scalar.power_eq_zpow`
    * `Scalar.truncate_of_nonneg`
    * `Scalar.truncate_of_nonpos`
    * `Scalar.truncate_mono`
-/

------------------------------------------------------------
-- Constants
------------------------------------------------------------

namespace Carnatic

namespace Scalar

@[simp]
theorem ofInt_rat (n : Int) :
    (ofInt n : ℚ) = n :=
  rfl

theorem inUnit_iff {x : ℚ} :
    InUnit x ↔ 0 ≤ x ∧ x ≤ 1 := by
  unfold InUnit
  rw [ofInt_rat, ofInt_rat, Int.cast_zero, Int.cast_one]

/- Clamping goes to the nearest number in `[0, 1]`. -/
theorem clampUnit_eq (x : ℚ) :
    clampUnit x = max 0 (min x 1) := by
  unfold clampUnit
  simp only [ofInt_rat, Int.cast_zero, Int.cast_one]
  by_cases hBelow : x < 0
  · have hUnit : x ≤ 1 := hBelow.le.trans zero_le_one
    rw [if_pos hBelow, if_neg (not_lt.mpr zero_le_one),
      min_eq_left hUnit, max_eq_left hBelow.le]
  · rw [if_neg hBelow]
    by_cases hAbove : 1 < x
    · rw [if_pos hAbove, min_eq_right hAbove.le,
        max_eq_right zero_le_one]
    · rw [if_neg hAbove, min_eq_left (not_lt.mp hAbove),
        max_eq_right (not_lt.mp hBelow)]

------------------------------------------------------------
-- Powers
------------------------------------------------------------

/- The loop multiplies its result by the power that is still
missing. -/
theorem powerLoop_eq_mul_pow
    (result base : ℚ)
    (exponent : Nat) :
    powerLoop result base exponent =
      result * base ^ exponent := by
  fun_induction powerLoop result base exponent with
  | case1 result base exponent next hLast =>
      have hExponent : exponent = 0 ∨ exponent = 1 := by
        omega
      rcases hExponent with rfl | rfl
      · simp [next]
      · simp [next]
  | case2 result base exponent next hMore ih =>
      have hSquare :
          (base * base) ^ (exponent / 2) =
            base ^ (2 * (exponent / 2)) := by
        rw [pow_mul, pow_two]
      by_cases hOdd : exponent % 2 = 1
      · have hSplit :
            exponent = 2 * (exponent / 2) + 1 := by
          omega
        have hPower :
            base ^ exponent =
              base ^ (2 * (exponent / 2)) * base := by
          conv_lhs => rw [hSplit, pow_succ]
        rw [ih, hPower]
        simp only [next, dif_pos hOdd]
        refine Eq.trans
          (congrArg (result * base * ·) hSquare) ?_
        ring
      · have hSplit : exponent = 2 * (exponent / 2) := by
          omega
        have hPower :
            base ^ exponent =
              base ^ (2 * (exponent / 2)) := by
          conv_lhs => rw [hSplit]
        rw [ih, hPower]
        simp only [next, dif_neg hOdd]
        exact congrArg (result * ·) hSquare

/- Powers with any integral exponent are those of the field of
rationals. -/
theorem power_eq_zpow
    (base : ℚ)
    (exponent : Int) :
    power base exponent = base ^ exponent := by
  have hPositive :
      powerLoop (ofInt 1) base exponent.natAbs =
        base ^ exponent.natAbs := by
    rw [powerLoop_eq_mul_pow]
    simp
  unfold power
  simp only [hPositive]
  by_cases hNegative : exponent < 0
  · rw [if_pos hNegative]
    have hAbs : exponent = -(exponent.natAbs : Int) := by
      omega
    conv_rhs => rw [hAbs, zpow_neg, zpow_natCast]
    exact one_div _
  · rw [if_neg hNegative]
    have hAbs : exponent = (exponent.natAbs : Int) := by
      omega
    conv_rhs => rw [hAbs, zpow_natCast]

------------------------------------------------------------
-- Truncation
------------------------------------------------------------

theorem truncate_of_nonneg
    {x : ℚ}
    (hNonneg : 0 ≤ x) :
    truncate x = ⌊x⌋ := by
  have hNum : 0 ≤ x.num := Rat.num_nonneg.mpr hNonneg
  rw [Rat.floor_def']
  exact Int.tdiv_eq_ediv_of_nonneg hNum

theorem truncate_neg (x : ℚ) :
    truncate (-x) = -truncate x := by
  exact Int.neg_tdiv x.num x.den

theorem truncate_of_nonpos
    {x : ℚ}
    (hNonpos : x ≤ 0) :
    truncate x = ⌈x⌉ := by
  have hNeg : truncate (-x) = ⌊-x⌋ :=
    truncate_of_nonneg (neg_nonneg.mpr hNonpos)
  rw [truncate_neg, Int.floor_neg] at hNeg
  omega

/- Truncation keeps the order, also across zero. -/
theorem truncate_mono
    {x y : ℚ}
    (hLess : x ≤ y) :
    truncate x ≤ truncate y := by
  rcases le_total 0 x with hNonneg | hNonpos
  · rw [truncate_of_nonneg hNonneg,
      truncate_of_nonneg (hNonneg.trans hLess)]
    exact Int.floor_le_floor hLess
  · rw [truncate_of_nonpos hNonpos]
    rcases le_total y 0 with hBelow | hAbove
    · rw [truncate_of_nonpos hBelow]
      exact Int.ceil_le_ceil hLess
    · rw [truncate_of_nonneg hAbove]
      have hCeil : ⌈x⌉ ≤ 0 :=
        Int.ceil_le.mpr (by exact_mod_cast hNonpos)
      exact hCeil.trans (Int.floor_nonneg.mpr hAbove)

end Scalar

end Carnatic
