/-
  Reading decimal numbers.

  A decimal is an optional sign, digits with at most one
  point among or beside them, and an optional exponent after
  the letter `e`.  Its float is the nearest one.

  Key definitions include:
    * `Decimal.digits?`
    * `Decimal.nearest`
    * `Decimal.read?`
-/

------------------------------------------------------------
-- Digits
------------------------------------------------------------

namespace Carnatic

namespace Decimal

/- The value of a digit in a base up to sixteen. -/
def digit?
    (base : Nat)
    (c : Char) : Option Nat :=
  let n := c.toNat
  let value? :=
    if '0'.toNat ≤ n && n ≤ '9'.toNat then
      some (n - '0'.toNat)
    else if 'a'.toNat ≤ n && n ≤ 'f'.toNat then
      some (n - 'a'.toNat + 10)
    else if 'A'.toNat ≤ n && n ≤ 'F'.toNat then
      some (n - 'A'.toNat + 10)
    else none
  value?.filter (· < base)

/- The number that digits write, most significant first. -/
def digitsFrom
    (base : Nat) :
    Nat → List Char → Option Nat
| value, [] => some value
| value, c :: rest =>
    match digit? base c with
    | some d => digitsFrom base (value * base + d) rest
    | none => none

/- The number that one or more digits write. -/
def digits?
    (base : Nat)
    (text : List Char) : Option Nat :=
  if text.isEmpty then none else digitsFrom base 0 text

------------------------------------------------------------
-- Nearest Floats
------------------------------------------------------------

/-
  The float nearest to a whole number times a power of ten.
  Where the first digit stands too high or too low for any
  float the answer is infinity or zero at once.
-/
def nearest
    (negative : Bool)
    (multiple : Nat)
    (grid : Int) : Float :=
  let size : Int := (Nat.toDigits 10 multiple).length + grid
  let magnitude :=
    if multiple = 0 || size < -330 then
      0.0
    else if 330 < size then
      1.0 / 0.0
    else
      Float.ofScientific multiple (grid < 0) grid.natAbs
  if negative then -magnitude else magnitude

/- Take a sign off the front: whether it is a minus. -/
def takeSign : List Char → Bool × List Char
| '-' :: rest => (true, rest)
| '+' :: rest => (false, rest)
| text => (false, text)

/- The exponent part of a decimal, empty or after an `e`. -/
def exponent? : List Char → Option Int
| [] => some 0
| e :: rest =>
    if e = 'e' || e = 'E' then
      let (negative, written) := takeSign rest
      (digits? 10 written).map fun n =>
        if negative then -(n : Int) else n
    else none

/- The nearest float of a whole text that is a decimal. -/
def read? (text : List Char) : Option Float :=
  let (negative, unsigned) := takeSign text
  let whole := unsigned.takeWhile Char.isDigit
  let afterWhole := unsigned.dropWhile Char.isDigit
  let (fraction, afterFraction) :=
    match afterWhole with
    | '.' :: rest =>
        (rest.takeWhile Char.isDigit,
          rest.dropWhile Char.isDigit)
    | rest => ([], rest)
  match digits? 10 (whole ++ fraction),
      exponent? afterFraction with
  | some multiple, some exponent =>
      some (nearest negative multiple
        (exponent - fraction.length))
  | _, _ => none

end Decimal

end Carnatic
