import Carnatic.Performance
import Carnatic.Proofs.Scalar.Rational

/-
  Bends without rounding.

  The wheel has 8192 steps for an octave down and one step
  less for an octave up. Its value is within one step of the
  bend that was asked for, as far as the wheel reaches.

  Main declarations:
    * `bendValue_eq`
    * `bendValue_mono`
    * `bendValue_up` and `bendValue_down`
    * `abs_semitonesOf_bendValue_sub_le`
-/

------------------------------------------------------------
-- Steps Of The Wheel
------------------------------------------------------------

namespace Carnatic

/- The semitones of a wheel position. -/
def semitonesOf (value : Int) : ℚ :=
  value * 12 / 8192

/- A bend as far as the wheel reaches. -/
def limitBend (semitones : ℚ) : ℚ :=
  max (-12) (min semitones 12)

theorem limitBend_of_abs_le
    {semitones : ℚ}
    (hReach : |semitones| ≤ 12) :
    limitBend semitones = semitones := by
  rcases abs_le.mp hReach with ⟨hLow, hHigh⟩
  rw [limitBend, min_eq_left hHigh, max_eq_right hLow]

/- The wheel's value is the truncated number of steps, kept
between the ends. -/
theorem bendValue_eq (semitones : ℚ) :
    bendValue semitones =
      max (-8192)
        (min (Scalar.truncate (semitones * 8192 / 12))
          8191) := by
  have hSteps :
      semitones / (12 : ℚ) * 8192 =
        semitones * 8192 / 12 := by
    ring
  change
    max (-8192)
      (min (Scalar.truncate (semitones / (12 : ℚ) * 8192))
        8191) = _
  rw [hSteps]

theorem bendValue_zero :
    bendValue (0 : ℚ) = 0 := by
  decide +kernel

/- The wheel goes no lower for a higher bend, and both ends
keep this order. -/
theorem bendValue_mono
    {first second : ℚ}
    (hLess : first ≤ second) :
    bendValue first ≤ bendValue second := by
  have hSteps :
      first * 8192 / 12 ≤ second * 8192 / 12 := by
    linarith
  have hTruncate := Scalar.truncate_mono hSteps
  rw [bendValue_eq, bendValue_eq]
  exact max_le_max_left _ (min_le_min_right _ hTruncate)

/- Upwards, the wheel falls short of a bend by at most one
step. -/
theorem bendValue_up
    {semitones : ℚ}
    (hUp : 0 ≤ semitones) :
    semitonesOf (bendValue semitones) ≤
        min semitones 12 ∧
      min semitones 12 ≤
        semitonesOf (bendValue semitones) + 12 / 8192 := by
  let steps : ℚ := semitones * 8192 / 12
  have hSteps : semitones = steps * 12 / 8192 := by
    simp only [steps]
    ring
  have hNonneg : 0 ≤ steps := by
    simp only [steps]
    linarith
  have hLow : (⌊steps⌋ : ℚ) ≤ steps := Int.floor_le steps
  have hHigh : steps < ⌊steps⌋ + 1 :=
    Int.lt_floor_add_one steps
  have hValue : bendValue semitones = min ⌊steps⌋ 8191 := by
    rw [bendValue_eq, Scalar.truncate_of_nonneg hNonneg]
    have hFloor : 0 ≤ ⌊steps⌋ := Int.floor_nonneg.mpr hNonneg
    change max (-8192) (min ⌊steps⌋ 8191) = _
    omega
  rw [hValue, semitonesOf]
  push_cast
  rcases le_total (⌊steps⌋ : ℚ) 8191 with hIn | hOut
  · rw [min_eq_left hIn]
    constructor
    · apply le_min <;> linarith
    · have hMin := min_le_left semitones 12
      linarith
  · rw [min_eq_right hOut]
    constructor
    · apply le_min <;> linarith
    · have hMin := min_le_right semitones 12
      linarith

/- Downwards, the wheel falls short of a bend by at most one
step. -/
theorem bendValue_down
    {semitones : ℚ}
    (hDown : semitones ≤ 0) :
    max (-12) semitones ≤
        semitonesOf (bendValue semitones) ∧
      semitonesOf (bendValue semitones) - 12 / 8192 ≤
        max (-12) semitones := by
  let steps : ℚ := semitones * 8192 / 12
  have hSteps : semitones = steps * 12 / 8192 := by
    simp only [steps]
    ring
  have hNonpos : steps ≤ 0 := by
    simp only [steps]
    linarith
  have hLow : steps ≤ ⌈steps⌉ := Int.le_ceil steps
  have hHigh : (⌈steps⌉ : ℚ) < steps + 1 :=
    Int.ceil_lt_add_one steps
  have hValue :
      bendValue semitones = max (-8192) ⌈steps⌉ := by
    rw [bendValue_eq, Scalar.truncate_of_nonpos hNonpos]
    have hCeil : ⌈steps⌉ ≤ 0 := by
      exact Int.ceil_le.mpr (by exact_mod_cast hNonpos)
    change max (-8192) (min ⌈steps⌉ 8191) = _
    omega
  rw [hValue, semitonesOf]
  push_cast
  rcases le_total (-8192 : ℚ) ⌈steps⌉ with hIn | hOut
  · rw [max_eq_right hIn]
    constructor
    · apply max_le <;> linarith
    · have hMax := le_max_right (-12) semitones
      linarith
  · rw [max_eq_left hOut]
    constructor
    · apply max_le <;> linarith
    · have hMax := le_max_left (-12) semitones
      linarith

/- The wheel misses a bend, as far as it reaches, by at most
one step. -/
theorem abs_semitonesOf_bendValue_sub_le (semitones : ℚ) :
    |semitonesOf (bendValue semitones) -
        limitBend semitones| ≤ 12 / 8192 := by
  rw [abs_le]
  rcases le_total 0 semitones with hUp | hDown
  · have hLimit : limitBend semitones = min semitones 12 := by
      apply max_eq_right
      apply le_min <;> linarith
    rcases bendValue_up hUp with ⟨hLow, hHigh⟩
    rw [hLimit]
    constructor <;> linarith
  · have hLimit : limitBend semitones = max (-12) semitones := by
      rw [limitBend, min_eq_left (by linarith)]
    rcases bendValue_down hDown with ⟨hLow, hHigh⟩
    rw [hLimit]
    constructor <;> linarith

end Carnatic
