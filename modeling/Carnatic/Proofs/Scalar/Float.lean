import Carnatic.Scalar
import Mathlib.Algebra.Order.Ring.Int
import Mathlib.Order.Compare

/-
  The order of floats.

  A float is a sign, an exponent and a fraction in 64 bits.
  Numbers compare like integers: the bits behind the sign,
  with the sign applied, are the level of a float. Both zeros
  have one level, and what is not a number compares with
  nothing. The rank of a float refines its level: it tells
  the zeros apart, and so all floats.

  Main declarations:
    * `floatLevel`
    * `Unpacked.HasLevel.compare_eq`
    * `float_le_iff`, `float_lt_iff` and `float_beq_iff`
    * `floatLevel_le_of_floatRank_le`
    * `floatRank_injective`
-/

------------------------------------------------------------
-- Levels
------------------------------------------------------------

namespace Carnatic

open Float.Model (Format UnpackedFloat)
open Float.Model.UnpackedFloat

/- The level of a float: the bits behind its sign, counted
down from zero where the sign is set. -/
def floatLevel (x : Float) : Int :=
  let bits := x.toBits.toNat
  if bits < 0x8000000000000000 then
    bits
  else
    0x8000000000000000 - bits

namespace Unpacked

@[simp]
theorem apply_positive (n : Int) :
    Sign.positive.apply n = n :=
  rfl

@[simp]
theorem apply_negative (n : Int) :
    Sign.negative.apply n = -n :=
  rfl

theorem apply_zero (sign : Sign) :
    sign.apply 0 = 0 := by
  cases sign with
  | positive => rfl
  | negative => rfl

/-
  The level of a number by its parts. The fraction counts
  between two powers of two, and the next power of two stands
  `2 ^ 52` levels above. The leading bit may be missing at the
  lowest exponent only.
-/
inductive HasLevel : UnpackedFloat → Int → Prop
| zero (sign : Sign) :
    HasLevel (.zero sign) 0
| infinity (sign : Sign) :
    HasLevel (.infinity sign) (sign.apply (2047 * 2 ^ 52))
| finite
    (sign : Sign)
    {mantissa : Nat}
    {exponent : Int}
    (hPos : 0 < mantissa)
    (hMantissa : mantissa < 2 ^ 53)
    (hLow : -1074 ≤ exponent)
    (hHigh : exponent ≤ 971)
    (hLeading : -1074 < exponent → 2 ^ 52 ≤ mantissa) :
    HasLevel (.finite sign mantissa exponent hPos)
      (sign.apply (2 ^ 52 * (exponent + 1074) + mantissa))

------------------------------------------------------------
-- Comparing Levels
------------------------------------------------------------

theorem compare_neg (low high : Int) :
    compare (-low) (-high) = (compare low high).swap := by
  rcases lt_trichotomy low high with hBelow | hSame | hAbove
  · rw [compare_lt_iff_lt.mpr hBelow]
    exact compare_gt_iff_gt.mpr (Int.neg_lt_neg hBelow)
  · rw [compare_eq_iff_eq.mpr hSame]
    exact compare_eq_iff_eq.mpr (congrArg Neg.neg hSame)
  · rw [compare_gt_iff_gt.mpr hAbove]
    exact compare_lt_iff_lt.mpr (Int.neg_lt_neg hAbove)

/- Magnitudes compare by the exponent first and by the
mantissa next, as their levels do. -/
theorem compare_magnitude
    {mantissa other : Nat}
    {exponent otherExponent : Int}
    (hMantissa : mantissa < 2 ^ 53)
    (hOther : other < 2 ^ 53)
    (hLow : -1074 ≤ exponent)
    (hOtherLow : -1074 ≤ otherExponent)
    (hLeading : -1074 < exponent → 2 ^ 52 ≤ mantissa)
    (hOtherLeading : -1074 < otherExponent → 2 ^ 52 ≤ other) :
    (compare exponent otherExponent).then
        (compare mantissa other) =
      compare (2 ^ 52 * (exponent + 1074) + mantissa : Int)
        (2 ^ 52 * (otherExponent + 1074) + other) := by
  rcases lt_trichotomy exponent otherExponent with
    hBelow | hSame | hAbove
  · -- A leading bit makes up for any smaller mantissa.
    have hLevel :
        (2 ^ 52 * (exponent + 1074) + mantissa : Int) <
          2 ^ 52 * (otherExponent + 1074) + other := by
      have hSize := hOtherLeading (by omega)
      omega
    rw [compare_lt_iff_lt.mpr hBelow,
      compare_lt_iff_lt.mpr hLevel]
    rfl
  · subst hSame
    rw [compare_eq_iff_eq.mpr rfl, Ordering.eq_then]
    rcases lt_trichotomy mantissa other with
      hBelow | hSame | hAbove
    · rw [compare_lt_iff_lt.mpr hBelow, compare_lt_iff_lt.mpr]
      omega
    · rw [compare_eq_iff_eq.mpr hSame, compare_eq_iff_eq.mpr]
      omega
    · rw [compare_gt_iff_gt.mpr hAbove, compare_gt_iff_gt.mpr]
      omega
  · have hLevel :
        (2 ^ 52 * (otherExponent + 1074) + other : Int) <
          2 ^ 52 * (exponent + 1074) + mantissa := by
      have hSize := hLeading (by omega)
      omega
    rw [compare_gt_iff_gt.mpr hAbove,
      compare_gt_iff_gt.mpr hLevel]
    rfl

/- The levels of finite numbers lie between those of the
infinities. -/
theorem finite_bounds
    (sign : Sign)
    {mantissa : Nat}
    {exponent : Int}
    (hMantissa : mantissa < 2 ^ 53)
    (hLow : -1074 ≤ exponent)
    (hHigh : exponent ≤ 971) :
    -(2047 * 2 ^ 52) <
        sign.apply (2 ^ 52 * (exponent + 1074) + mantissa) ∧
      sign.apply (2 ^ 52 * (exponent + 1074) + mantissa) <
        2047 * 2 ^ 52 := by
  cases sign with
  | positive =>
      rw [apply_positive]
      omega
  | negative =>
      rw [apply_negative]
      omega

/- Numbers compare like their levels. -/
theorem HasLevel.compare_eq
    {first second : UnpackedFloat}
    {low high : Int}
    (hFirst : HasLevel first low)
    (hSecond : HasLevel second high) :
    first.compare second = some (compare low high) := by
  have hBelow :
      ∀ {x y : Int}, x < y →
        some Ordering.lt = some (compare x y) :=
    fun h => congrArg some (compare_lt_iff_lt.mpr h).symm
  have hAbove :
      ∀ {x y : Int}, y < x →
        some Ordering.gt = some (compare x y) :=
    fun h => congrArg some (compare_gt_iff_gt.mpr h).symm
  cases hFirst with
  | zero sign =>
      cases hSecond with
      | zero other => rfl
      | infinity other => cases other <;> rfl
      | finite other =>
          cases other with
          | positive =>
              apply hBelow
              rw [apply_positive]
              omega
          | negative =>
              apply hAbove
              rw [apply_negative]
              omega
  | infinity sign =>
      cases hSecond with
      | zero other => cases sign <;> rfl
      | infinity other => cases sign <;> cases other <;> rfl
      | finite other _ hMantissa hLow hHigh =>
          have hBounds :=
            finite_bounds other hMantissa hLow hHigh
          cases sign with
          | positive => exact hAbove hBounds.2
          | negative => exact hBelow hBounds.1
  | finite sign hPos hMantissa hLow hHigh hLeading =>
      cases hSecond with
      | zero other =>
          cases sign with
          | positive =>
              apply hAbove
              rw [apply_positive]
              omega
          | negative =>
              apply hBelow
              rw [apply_negative]
              omega
      | infinity other =>
          have hBounds :=
            finite_bounds sign hMantissa hLow hHigh
          cases other with
          | positive => cases sign <;> exact hBelow hBounds.2
          | negative => cases sign <;> exact hAbove hBounds.1
      | finite other _ hOther hOtherLow _ hOtherLeading =>
          have hSizes := compare_magnitude hMantissa hOther
            hLow hOtherLow hLeading hOtherLeading
          cases sign with
          | positive =>
              cases other with
              | positive => exact congrArg some hSizes
              | negative =>
                  apply hAbove
                  rw [apply_positive, apply_negative]
                  omega
          | negative =>
              cases other with
              | positive =>
                  apply hBelow
                  rw [apply_positive, apply_negative]
                  omega
              | negative =>
                  rw [apply_negative, apply_negative,
                    compare_neg, ← hSizes]
                  rfl

------------------------------------------------------------
-- Fields
------------------------------------------------------------

/- The fraction in some bits. -/
def fraction (bits : BitVec 64) : BitVec 52 :=
  @unpackMantissa Format.binary64 bits

/- The exponent in some bits, as it is stored. -/
def storedExponent (bits : BitVec 64) : BitVec 11 :=
  @unpackExponent Format.binary64 bits

/- The sign in some bits. -/
def signOf (bits : BitVec 64) : Sign :=
  Sign.ofBitVec (@unpackSign Format.binary64 bits)

theorem toNat_fraction (bits : BitVec 64) :
    (fraction bits).toNat = bits.toNat % 2 ^ 52 := by
  change (bits.extractLsb 51 0).toNat = _
  rw [BitVec.extractLsb_toNat, Nat.shiftRight_zero]

theorem toNat_storedExponent (bits : BitVec 64) :
    (storedExponent bits).toNat =
      bits.toNat / 2 ^ 52 % 2 ^ 11 := by
  change (bits.extractLsb 62 52).toNat = _
  rw [BitVec.extractLsb_toNat, Nat.shiftRight_eq_div_pow]

theorem signOf_eq (bits : BitVec 64) :
    signOf bits =
      if bits.toNat < 0x8000000000000000 then
        .positive
      else
        .negative := by
  have hSign :
      (@unpackSign Format.binary64 bits).toNat =
        bits.toNat / 2 ^ 63 % 2 := by
    change (bits.extractLsb 63 63).toNat = _
    rw [BitVec.extractLsb_toNat, Nat.shiftRight_eq_div_pow]
  have hBits := bits.isLt
  unfold signOf Sign.ofBitVec
  congr 1
  rw [← BitVec.toNat_inj, hSign, eq_iff_iff]
  simp only [BitVec.toNat_ofNat]
  omega

/- A bit in front of others counts for the power of two that
is their number. -/
theorem toNat_one_append
    {width : Nat}
    (bits : BitVec width) :
    (1#1 ++ bits).toNat = 2 ^ width + bits.toNat := by
  rw [BitVec.toNat_append, Nat.shiftLeft_eq, Nat.mul_comm,
    ← Nat.two_pow_add_eq_or_of_lt bits.isLt]
  simp

theorem toNat_one_append_pos
    {width : Nat}
    (bits : BitVec width) :
    0 < (1#1 ++ bits).toNat := by
  have hPower := Nat.two_pow_pos width
  rw [toNat_one_append]
  omega

theorem toNat_pos_of_ne_zero
    {width : Nat}
    {bits : BitVec width}
    (hBits : bits ≠ 0) :
    0 < bits.toNat := by
  rw [BitVec.toNat_pos, BitVec.pos_iff_ne_zero]
  exact hBits

/-
  What some bits stand for. The lowest exponent is stored as
  zero, and then there is no leading bit; the highest is for
  what is not finite.
-/
theorem unpack_eq (bits : BitVec 64) :
    UnpackedFloat.unpack Format.binary64 bits =
      if storedExponent bits = -1#11 then
        if fraction bits = 0#52 then
          .infinity (signOf bits)
        else
          .notANumber
      else if storedExponent bits = 0#11 then
        if hZero : fraction bits = 0#52 then
          .zero (signOf bits)
        else
          .finite (signOf bits) (fraction bits).toNat
            ((storedExponent bits).toNat - 1075 + 1)
            (toNat_pos_of_ne_zero hZero)
      else
        .finite (signOf bits) (1#1 ++ fraction bits).toNat
          ((storedExponent bits).toNat - 1075)
          (toNat_one_append_pos _) :=
  rfl

/- The bits of a number have the level that the exponent and
the fraction make up side by side. -/
theorem hasLevel_unpack
    {bits : BitVec 64}
    (hNumber :
      UnpackedFloat.unpack Format.binary64 bits ≠
        .notANumber) :
    HasLevel (UnpackedFloat.unpack Format.binary64 bits)
      ((signOf bits).apply
        (2 ^ 52 * (storedExponent bits).toNat +
          (fraction bits).toNat)) := by
  have hFraction := (fraction bits).isLt
  have hExponent := (storedExponent bits).isLt
  rw [unpack_eq] at hNumber ⊢
  by_cases hTop : storedExponent bits = -1#11
  · rw [if_pos hTop] at hNumber ⊢
    by_cases hZero : fraction bits = 0#52
    · rw [if_pos hZero, hTop, hZero]
      exact .infinity _
    · rw [if_neg hZero] at hNumber
      exact absurd rfl hNumber
  · rw [if_neg hTop]
    by_cases hBottom : storedExponent bits = 0#11
    · rw [if_pos hBottom]
      by_cases hZero : fraction bits = 0#52
      · rw [dif_pos hZero, hBottom, hZero]
        have hLevel := HasLevel.zero (signOf bits)
        rw [← apply_zero] at hLevel
        exact hLevel
      · rw [dif_neg hZero, hBottom]
        refine .finite _ _ ?_ ?_ ?_ ?_
        · omega
        · decide
        · decide
        · intro hLeads
          exact absurd hLeads (by decide)
    · rw [if_neg hBottom]
      have hBelow : (storedExponent bits).toNat ≠ 2047 :=
        fun h => hTop (BitVec.eq_of_toNat_eq h)
      have hAbove : (storedExponent bits).toNat ≠ 0 :=
        fun h => hBottom (BitVec.eq_of_toNat_eq h)
      have hLead := toNat_one_append (fraction bits)
      have hSize :
          (2 ^ 52 * (storedExponent bits).toNat +
              (fraction bits).toNat : Int) =
            2 ^ 52 *
                (((storedExponent bits).toNat : Int) -
                  1075 + 1074) +
              (1#1 ++ fraction bits).toNat := by
        omega
      rw [hSize]
      refine .finite _ _ ?_ ?_ ?_ ?_
      · omega
      · omega
      · omega
      · intro _
        omega

end Unpacked

------------------------------------------------------------
-- Comparisons
------------------------------------------------------------

open Unpacked

/- The level of a float by the fields of its bits. -/
theorem floatLevel_eq (x : Float) :
    floatLevel x =
      (signOf x.toBits.toBitVec).apply
        (2 ^ 52 * (storedExponent x.toBits.toBitVec).toNat +
          (fraction x.toBits.toBitVec).toNat) := by
  have hBits := x.toBits.toBitVec.isLt
  change (if x.toBits.toBitVec.toNat < _ then _ else
    0x8000000000000000 - (x.toBits.toBitVec.toNat : Int)) = _
  rw [signOf_eq, toNat_storedExponent, toNat_fraction]
  by_cases hPositive :
      x.toBits.toBitVec.toNat < 0x8000000000000000
  · rw [if_pos hPositive, if_pos hPositive, apply_positive]
    change (x.toBits.toBitVec.toNat : Int) = _
    omega
  · rw [if_neg hPositive, if_neg hPositive, apply_negative]
    omega

theorem hasLevel_floatLevel
    {x : Float}
    (hNumber : x.isNaN = false) :
    HasLevel x.toModel.unpack (floatLevel x) := by
  rw [floatLevel_eq]
  apply hasLevel_unpack
  intro hNone
  have hNaN : x.isNaN = true := by
    change (UnpackedFloat.unpack Format.binary64
      x.toModel.toBits.toBitVec).isNaN = true
    rw [hNone]
    rfl
  rw [hNumber] at hNaN
  exact Bool.noConfusion hNaN

/- Floats that are numbers compare like their levels; others
do not compare. -/
theorem compare_unpack (x y : Float) :
    x.toModel.unpack.compare y.toModel.unpack =
      if x.isNaN = false ∧ y.isNaN = false then
        some (compare (floatLevel x) (floatLevel y))
      else
        none := by
  by_cases hNumbers : x.isNaN = false ∧ y.isNaN = false
  · rw [if_pos hNumbers]
    exact (hasLevel_floatLevel hNumbers.1).compare_eq
      (hasLevel_floatLevel hNumbers.2)
  · rw [if_neg hNumbers]
    have hFirst : x.isNaN = x.toModel.unpack.isNaN := rfl
    have hSecond : y.isNaN = y.toModel.unpack.isNaN := rfl
    rw [hFirst, hSecond] at hNumbers
    revert hNumbers
    cases x.toModel.unpack with
    | notANumber =>
        intro _
        rfl
    | zero | infinity | finite =>
        cases y.toModel.unpack with
        | notANumber =>
            intro _
            rfl
        | zero | infinity | finite =>
            intro hNumbers
            exact absurd ⟨rfl, rfl⟩ hNumbers

/- Hence a comparison asks for two numbers and for the order
of their levels. -/
theorem any_compare_unpack_iff
    {x y : Float}
    (accepts : Ordering → Bool) :
    (x.toModel.unpack.compare y.toModel.unpack).any accepts =
        true ↔
      (x.isNaN = false ∧ y.isNaN = false) ∧
        accepts (compare (floatLevel x) (floatLevel y)) =
          true := by
  rw [compare_unpack]
  by_cases hNumbers : x.isNaN = false ∧ y.isNaN = false
  · rw [if_pos hNumbers, Option.any_some]
    exact (and_iff_right hNumbers).symm
  · rw [if_neg hNumbers, Option.any_none]
    constructor
    · intro hFalse
      cases hFalse
    · intro hBoth
      exact absurd hBoth.1 hNumbers

theorem beq_some_eq_any
    (found : Option Ordering)
    (order : Ordering) :
    (found == some order) = found.any (· == order) := by
  cases found with
  | none => rfl
  | some _ => rfl

theorem float_le_iff {x y : Float} :
    x ≤ y ↔
      (x.isNaN = false ∧ y.isNaN = false) ∧
        floatLevel x ≤ floatLevel y := by
  have hCompare :
      x ≤ y ↔
        (x.toModel.unpack.compare y.toModel.unpack).any
          (·.isLE) = true := by
    change decide (x.toModel ≤ y.toModel) = true ↔ _
    rw [decide_eq_true_iff]
    rfl
  rw [hCompare, any_compare_unpack_iff, Std.isLE_compare]

theorem float_lt_iff {x y : Float} :
    x < y ↔
      (x.isNaN = false ∧ y.isNaN = false) ∧
        floatLevel x < floatLevel y := by
  have hCompare :
      x < y ↔
        (x.toModel.unpack.compare y.toModel.unpack ==
          some .lt) = true := by
    change decide (x.toModel < y.toModel) = true ↔ _
    rw [decide_eq_true_iff]
    rfl
  rw [hCompare, beq_some_eq_any, any_compare_unpack_iff,
    beq_iff_eq, compare_lt_iff_lt]

theorem float_beq_iff {x y : Float} :
    (x == y) = true ↔
      (x.isNaN = false ∧ y.isNaN = false) ∧
        floatLevel x = floatLevel y := by
  have hCompare :
      (x == y) =
        (x.toModel.unpack.compare y.toModel.unpack ==
          some .eq) :=
    rfl
  rw [hCompare, beq_some_eq_any, any_compare_unpack_iff,
    beq_iff_eq, compare_eq_iff_eq]

/- The zeros are equal floats, and not the same. -/
example :
    ((-0.0 : Float) == 0.0) = true ∧ (-0.0 : Float) ≠ 0.0 := by
  decide +kernel

------------------------------------------------------------
-- Ranks
------------------------------------------------------------

/- Below zero the ranks make room for the negative zero. -/
theorem floatRank_eq (x : Float) :
    floatRank x = floatLevel x ∧ 0 ≤ floatLevel x ∨
      floatRank x = floatLevel x - 1 ∧ floatLevel x ≤ 0 := by
  unfold floatRank floatLevel
  by_cases hPositive : x.toBits.toNat < 0x8000000000000000
  · left
    simp only [if_pos hPositive, true_and]
    exact Int.natCast_nonneg _
  · right
    simp only [if_neg hPositive]
    omega

theorem floatLevel_le_of_floatRank_le
    {x y : Float}
    (hRanks : floatRank x ≤ floatRank y) :
    floatLevel x ≤ floatLevel y := by
  rcases floatRank_eq x with hFirst | hFirst
  · rcases floatRank_eq y with hSecond | hSecond
    · omega
    · omega
  · rcases floatRank_eq y with hSecond | hSecond
    · omega
    · omega

/- Floats of one rank are the same. -/
theorem floatRank_injective :
    Function.Injective floatRank := by
  intro x y hRanks
  have hFirst : x.toBits.toNat < 2 ^ 64 :=
    x.toBits.toBitVec.isLt
  have hSecond : y.toBits.toNat < 2 ^ 64 :=
    y.toBits.toBitVec.isLt
  have hBits : x.toBits.toNat = y.toBits.toNat := by
    unfold floatRank at hRanks
    dsimp only at hRanks
    split at hRanks
    · split at hRanks
      · omega
      · omega
    · split at hRanks
      · omega
      · omega
  have hWords : x.toBits = y.toBits :=
    UInt64.toNat_inj.mp hBits
  rcases x with ⟨⟨bits, hValid⟩⟩
  rcases y with ⟨⟨other, hOther⟩⟩
  have hSame : bits = other := hWords
  subst hSame
  rfl

end Carnatic
