import Carnatic.Decimal.Reading
import Carnatic.Scalar

/-
  Numbers in settings texts.

  A whole number is decimal, or has a letter behind a leading
  zero for base sixteen, eight or two.  A decimal one has no
  leading zeros.  A float is a decimal or one of the names of
  infinity and of not-a-number.

  Key definitions include:
    * `Yaml.natural?`
    * `Yaml.integer?`
    * `Yaml.float?`
-/

------------------------------------------------------------
-- Whole Numbers
------------------------------------------------------------

namespace Carnatic

namespace Yaml

/- The magnitude that unsigned digits write, in the base that
a letter behind a leading zero names. -/
def magnitude? : List Char → Option Nat
| '0' :: 'x' :: digits => Decimal.digits? 16 digits
| '0' :: 'o' :: digits => Decimal.digits? 8 digits
| '0' :: 'b' :: digits => Decimal.digits? 2 digits
| '0' :: _ :: _ => none
| digits => Decimal.digits? 10 digits

/- A whole number from zero on, with an optional plus. -/
def natural? (text : String) : Option Nat :=
  match text.toList with
  | '+' :: digits => magnitude? digits
  | digits => magnitude? digits

/- A whole number with an optional sign. -/
def integer? (text : String) : Option Int :=
  match text.toList with
  | '-' :: digits =>
      (magnitude? digits).map fun n => -(n : Int)
  | _ => (natural? text).map fun n => (n : Int)

/- A whole number from zero up to a bound. -/
def naturalUpTo?
    (bound : Nat)
    (text : String) : Option Nat :=
  (natural? text).filter (· ≤ bound)

/- A whole number that fits into thirty-two bits. -/
def integer32? (text : String) : Option Int :=
  (integer? text).filter fun n =>
    -0x80000000 ≤ n ∧ n < 0x80000000

------------------------------------------------------------
-- Floats
------------------------------------------------------------

/- The names of positive infinity. -/
def infinityNames : List String :=
  [".inf", ".Inf", ".INF"]

/- The names of what is not a number. -/
def notANumberNames : List String :=
  [".nan", ".NaN", ".NAN"]

/- A float: a name, or a decimal that is not too large for a
finite float. -/
def float? (text : String) : Option Float :=
  if notANumberNames.contains text then
    some (0.0 / 0.0)
  else
    let (negative, rest) := Decimal.takeSign text.toList
    if infinityNames.contains (String.ofList rest) then
      some (if negative then -1.0 / 0.0 else 1.0 / 0.0)
    else
      (Decimal.read? text.toList).filter Float.isFinite

end Yaml

end Carnatic
