import Carnatic.Curve
import Carnatic.Proofs.Scalar.Rational
import Mathlib.Order.Interval.Set.OrdConnected
import Mathlib.Tactic.Linarith

/-
  Weights of curves.

  The checkpoints of a curve lie in the unit square, so the
  weight between two of them does too, and a sample lies
  between the pitches that it leads from and to.

  Main declarations:
    * `Curve.between_mem_uIcc`
    * `Curve.weightFrom_mem`
    * `Curve.weight_mem_unit`
    * `Curve.abs_sample_sub_start_le`
-/

------------------------------------------------------------
-- Weights Over The Rationals
------------------------------------------------------------

namespace Carnatic

namespace Curve

/- The straight line between two points stays between their
weights. -/
theorem between_mem_uIcc
    {first second : Checkpoint ℚ}
    {time : ℚ}
    (hAfter : first.position ≤ time)
    (hBefore : time ≤ second.position) :
    between first second time ∈
      Set.uIcc first.weight second.weight := by
  let share : ℚ :=
    (time - first.position) /
      (second.position - first.position)
  let low : ℚ := min first.weight second.weight
  let high : ℚ := max first.weight second.weight
  have hShare : 0 ≤ share :=
    div_nonneg (by linarith) (by linarith)
  have hRest : 0 ≤ 1 - share :=
    sub_nonneg.mpr
      (div_le_one_of_le₀ (by linarith) (by linarith))
  -- The weight is a mean of the two, weighted by the share.
  have hMean :
      between first second time =
        (1 - share) * first.weight +
          share * second.weight := by
    change first.weight +
      share * (second.weight - first.weight) = _
    ring
  rw [hMean]
  constructor
  · have hLeft :
        (1 - share) * low ≤ (1 - share) * first.weight :=
      mul_le_mul_of_nonneg_left (min_le_left _ _) hRest
    have hRight : share * low ≤ share * second.weight :=
      mul_le_mul_of_nonneg_left (min_le_right _ _) hShare
    change low ≤ _
    linarith
  · have hLeft :
        (1 - share) * first.weight ≤ (1 - share) * high :=
      mul_le_mul_of_nonneg_left (le_max_left _ _) hRest
    have hRight : share * second.weight ≤ share * high :=
      mul_le_mul_of_nonneg_left (le_max_right _ _) hShare
    change _ ≤ high
    linarith

/- Points in a band have a weight in the band at every
time. -/
theorem weightFrom_mem
    {points : List (Checkpoint ℚ)}
    {time : ℚ}
    {band : Set ℚ}
    [band.OrdConnected]
    (hSome : points ≠ [])
    (hPoints : ∀ point ∈ points, point.weight ∈ band) :
    weightFrom points time ∈ band := by
  fun_induction weightFrom points time with
  | case1 => exact absurd rfl hSome
  | case2 last time => exact hPoints last (by simp)
  | case3 first second rest time hInside =>
      have hBand :
          Set.uIcc first.weight second.weight ⊆ band :=
        Set.OrdConnected.uIcc_subset inferInstance
          (hPoints first (by simp))
          (hPoints second (by simp))
      exact hBand (between_mem_uIcc hInside.1 hInside.2)
  | case4 first second rest time hOutside ih =>
      apply ih (List.cons_ne_nil _ _)
      intro point hPoint
      exact hPoints point (List.mem_cons_of_mem first hPoint)

/- Points of the unit square have a weight in `[0, 1]` at
every time. -/
theorem weightFrom_mem_unit
    {points : List (Checkpoint ℚ)}
    {time : ℚ}
    (hPoints : ∀ point ∈ points, InRange point) :
    0 ≤ weightFrom points time ∧
      weightFrom points time ≤ 1 := by
  by_cases hSome : points = []
  · subst hSome
    simp [weightFrom]
  · have hUnit :
        ∀ point ∈ points, point.weight ∈ Set.Icc (0 : ℚ) 1 :=
      fun point hPoint =>
        Scalar.inUnit_iff.mp (hPoints point hPoint).2
    exact weightFrom_mem hSome hUnit

theorem weight_mem_unit
    (curve : Curve ℚ)
    (time : ℚ) :
    0 ≤ curve.weight time ∧ curve.weight time ≤ 1 :=
  weightFrom_mem_unit curve.leadAcross.inRange

/- A sample moves from the start by its weight's share of the
whole way. -/
theorem sample_sub_start
    (curve : Curve ℚ)
    (time : ℚ)
    (start target : Int) :
    curve.sample time start target - start =
      curve.weight time * (target - start) := by
  change (start : ℚ) +
    curve.weight time * ((target : ℚ) - start) - start = _
  ring

/- A sample is no farther from the start than the target. -/
theorem abs_sample_sub_start_le
    (curve : Curve ℚ)
    (time : ℚ)
    (start target : Int) :
    |curve.sample time start target - start| ≤
      |(target : ℚ) - start| := by
  rcases curve.weight_mem_unit time with ⟨hLow, hHigh⟩
  rw [sample_sub_start, abs_mul, abs_of_nonneg hLow]
  exact mul_le_of_le_one_left (abs_nonneg _) hHigh

end Curve

end Carnatic
