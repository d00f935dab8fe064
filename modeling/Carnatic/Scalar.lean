/-
  The numbers that curves and bends are computed with.

  A program runs on binary floats.  The same definitions read
  over the rationals say what they mean without rounding.

  Key definitions include:
    * `Scalar`
    * `Scalar.power`
    * the instances for `Float` and `Rat`
-/

------------------------------------------------------------
-- Scalars
------------------------------------------------------------

namespace Carnatic

/-
  Numbers with arithmetic and comparisons. `ofInt` embeds the
  integers, `truncate` drops the fraction, and `precedes` is
  the total order that checkpoints are sorted by. Zero and one
  compare with each other as integers do; nothing else is
  asked of the two orders here.
-/
class Scalar (R : Type)
    extends Add R, Sub R, Mul R, Div R, LE R, LT R where
  decLE : ∀ x y : R, Decidable (x ≤ y)
  decLT : ∀ x y : R, Decidable (x < y)
  ofInt : Int → R
  truncate : R → Int
  precedes : R → R → Bool
  zero_le_zero : ofInt 0 ≤ ofInt 0
  zero_le_one : ofInt 0 ≤ ofInt 1
  one_le_one : ofInt 1 ≤ ofInt 1
  not_one_le_zero : ¬ofInt 1 ≤ ofInt 0
  zero_precedes_one : precedes (ofInt 0) (ofInt 1) = true

namespace Scalar

variable {R : Type} [Scalar R]

instance (x y : R) : Decidable (x ≤ y) :=
  decLE x y

instance (x y : R) : Decidable (x < y) :=
  decLT x y

------------------------------------------------------------
-- Powers
------------------------------------------------------------

/-
  Multiply a result by the square-and-multiply expansion of a
  power: the base is squared once for every binary digit of
  the exponent after the first, and joins the result where
  the digit is one.
-/
def powerLoop
    (result base : R)
    (exponent : Nat) : R :=
  let next :=
    if exponent % 2 = 1 then result * base else result
  if h : exponent / 2 = 0 then
    next
  else
    powerLoop next (base * base) (exponent / 2)
termination_by exponent
decreasing_by omega

/-
  An integral power; a negative one is the reciprocal of the
  power with the opposite exponent.
-/
def power
    (base : R)
    (exponent : Int) : R :=
  let positive := powerLoop (ofInt 1) base exponent.natAbs
  if exponent < 0 then ofInt 1 / positive else positive

/- A number brought into `[0, 1]`; what compares with
  neither end stays. -/
def clampUnit (x : R) : R :=
  let raised := if x < ofInt 0 then ofInt 0 else x
  if ofInt 1 < raised then ofInt 1 else raised

/- Both ends of `[0, 1]` belong to it. -/
def InUnit (x : R) : Prop :=
  ofInt 0 ≤ x ∧ x ≤ ofInt 1

instance (x : R) : Decidable (InUnit x) :=
  inferInstanceAs (Decidable (_ ∧ _))

theorem inUnit_zero : InUnit (ofInt 0 : R) :=
  ⟨zero_le_zero, zero_le_one⟩

theorem inUnit_one : InUnit (ofInt 1 : R) :=
  ⟨zero_le_one, one_le_one⟩

end Scalar

------------------------------------------------------------
-- Binary Floats
------------------------------------------------------------

/-
  The rank of a float in the total order of all floats: the
  magnitude's bits, counted down from minus one for a set
  sign. Negative zero comes right before zero.
-/
def floatRank (x : Float) : Int :=
  let bits := x.toBits.toNat
  if bits < 0x8000000000000000 then
    bits
  else
    0x7FFFFFFFFFFFFFFF - bits

/-
  The integer next to a float on the side of zero. What is
  not a number counts as zero, and magnitudes from `2 ^ 64`
  on as the largest below.
-/
def truncateFloat (x : Float) : Int :=
  if x < 0 then
    -((-x).toUInt64.toNat : Int)
  else
    x.toUInt64.toNat

instance : Scalar Float where
  decLE := inferInstance
  decLT := inferInstance
  ofInt := Float.ofInt
  truncate := truncateFloat
  precedes x y := floatRank x ≤ floatRank y
  zero_le_zero := by decide +kernel
  zero_le_one := by decide +kernel
  one_le_one := by decide +kernel
  not_one_le_zero := by decide +kernel
  zero_precedes_one := by decide +kernel

------------------------------------------------------------
-- Rationals
------------------------------------------------------------

instance : Scalar Rat where
  decLE := inferInstance
  decLT := inferInstance
  ofInt n := n
  truncate x := x.num.tdiv x.den
  precedes x y := x ≤ y
  zero_le_zero := by decide
  zero_le_one := by decide
  one_le_one := by decide
  not_one_le_zero := by decide
  zero_precedes_one := by decide

end Carnatic
