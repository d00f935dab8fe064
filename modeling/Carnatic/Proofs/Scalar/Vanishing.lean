import Carnatic.Scalar

/-
  Floats that vanish.

  A product with a zero is a zero, or it is not a number where
  the other factor is infinite or none. So a factor of zero
  leaves three floats, whatever it is multiplied with, and
  what is computed from these can be looked up.

  Main declarations:
    * `Vanishes`
    * `Vanishes.mul` and `Vanishes.mul_of_left`
    * `Vanishes.zero_add`
-/

------------------------------------------------------------
-- Zeros And What Is Not A Number
------------------------------------------------------------

namespace Carnatic

open Float.Model (Format UnpackedFloat)
open Float.Model.UnpackedFloat

/- Both zeros, and what is not a number. -/
inductive Vanishes : Float → Prop
| zero (sign : Sign) :
    Vanishes (.ofModel (.pack (.zero sign)))
| notANumber :
    Vanishes (.ofModel (.pack .notANumber))

namespace Vanishes

theorem unpack_pack_zero (sign : Sign) :
    (Float.Model.pack (.zero sign)).unpack = .zero sign := by
  cases sign with
  | positive => rfl
  | negative => rfl

theorem unpack_pack_notANumber :
    (Float.Model.pack .notANumber).unpack = .notANumber :=
  rfl

theorem ofInt_zero :
    Vanishes (Float.ofInt 0) :=
  .zero .positive

------------------------------------------------------------
-- Products And Sums
------------------------------------------------------------

variable {x : Float}

theorem mul
    (hVanishes : Vanishes x)
    (factor : Float) :
    Vanishes (factor * x) := by
  cases hVanishes with
  | zero sign =>
      change Vanishes (.ofModel (.pack
        (UnpackedFloat.mul Format.binary64
          factor.toModel.unpack
          (Float.Model.pack (.zero sign)).unpack)))
      rw [unpack_pack_zero]
      cases factor.toModel.unpack with
      | notANumber => exact .notANumber
      | infinity other => exact .notANumber
      | zero other => exact .zero (other * sign)
      | finite other => exact .zero (other * sign)
  | notANumber =>
      change Vanishes (.ofModel (.pack
        (UnpackedFloat.mul Format.binary64
          factor.toModel.unpack
          (Float.Model.pack .notANumber).unpack)))
      rw [unpack_pack_notANumber]
      cases factor.toModel.unpack <;> exact .notANumber

theorem mul_of_left
    (hVanishes : Vanishes x)
    (factor : Float) :
    Vanishes (x * factor) := by
  cases hVanishes with
  | zero sign =>
      change Vanishes (.ofModel (.pack
        (UnpackedFloat.mul Format.binary64
          (Float.Model.pack (.zero sign)).unpack
          factor.toModel.unpack)))
      rw [unpack_pack_zero]
      cases factor.toModel.unpack with
      | notANumber => exact .notANumber
      | infinity other => exact .notANumber
      | zero other => exact .zero (sign * other)
      | finite other => exact .zero (sign * other)
  | notANumber => exact .notANumber

/- Zero added to them does not bring them back. -/
theorem zero_add (hVanishes : Vanishes x) :
    Vanishes (Float.ofInt 0 + x) := by
  cases hVanishes with
  | zero sign =>
      cases sign with
      | positive => exact .zero .positive
      | negative => exact .zero .positive
  | notANumber => exact .notANumber

end Vanishes

end Carnatic
