/-
  Shortest decimal text of a binary number.

  A finite float stands for all reals that round to it.  Its
  text is the point of the coarsest decimal grid that meets
  this interval; of two such points the nearer one, and the
  larger one when both are equally near.  The text never has
  an exponent.

  Key definitions include:
    * `Decimal.Interval`
    * `Decimal.Interval.pointAt?`
    * `Decimal.Interval.shortest`
    * `Decimal.render`
-/

------------------------------------------------------------
-- Rounding Intervals
------------------------------------------------------------

namespace Carnatic

namespace Decimal

/-
  The reals around a positive value that round to it. The
  three numbers count units of `2 ^ exponent`; the two ends
  belong to the interval when `closed` holds.
-/
structure Interval where
  lower : Nat
  value : Nat
  upper : Nat
  exponent : Int
  closed : Bool

/-
  The interval of a positive finite float, read from its
  fields: a quarter of the last place is one unit. Below a
  power of two the floats lie twice as close.
-/
def Interval.ofFields
    (exponentField fraction : Nat) : Interval :=
  let significand :=
    if exponentField = 0 then fraction
    else fraction + 0x10000000000000
  let below :=
    if fraction = 0 && 1 < exponentField then 1 else 2
  { lower := 4 * significand - below
    value := 4 * significand
    upper := 4 * significand + 2
    exponent := (max exponentField 1 : Nat) - 1077
    closed := significand % 2 = 0 }

namespace Interval

/- A power of a base, one where the exponent is negative. -/
def positivePower (base : Nat) (exponent : Int) : Nat :=
  Nat.pow base exponent.toNat

/-
  The point of the grid of multiples of `10 ^ grid` that
  stands for the interval, as its multiple, if the grid meets
  the interval. Everything is counted in one small unit, in
  which all numbers involved are natural.
-/
def pointAt?
    (interval : Interval)
    (grid : Int) : Option Nat :=
  let step :=
    positivePower 10 grid *
      positivePower 2 (-interval.exponent)
  let unit :=
    positivePower 10 (-grid) *
      positivePower 2 interval.exponent
  let value := interval.value * unit
  let contains (multiple : Nat) : Bool :=
    let point := multiple * step
    if interval.closed then
      interval.lower * unit ≤ point &&
        point ≤ interval.upper * unit
    else
      interval.lower * unit < point &&
        point < interval.upper * unit
  let down := value / step
  let up := down + 1
  match contains down, contains up with
  | true, true =>
      if value - down * step < up * step - value then
        some down
      else
        some up
  | true, false => some down
  | false, true => some up
  | false, false => none

/-
  The first hit on grids of falling powers of ten, as the
  multiple and the power. The last grid tried is fine enough
  for every float.
-/
def firstPoint
    (interval : Interval) :
    Nat → Int → Nat × Int
| 0, grid => (0, grid)
| tries + 1, grid =>
    match interval.pointAt? grid with
    | some multiple => (multiple, grid)
    | none => interval.firstPoint tries (grid - 1)

/-
  The shortest decimal in the interval: a whole number and
  the power of ten that it is multiplied by. Grids from
  `10 ^ 309` to `10 ^ -350` cover the finite floats.
-/
def shortest (interval : Interval) : Nat × Int :=
  interval.firstPoint 660 309

end Interval

------------------------------------------------------------
-- Positional Text
------------------------------------------------------------

/- A whole number times a power of ten, without exponent. -/
def positional
    (multiple : Nat)
    (grid : Int) : String :=
  let digits := Nat.toDigits 10 multiple
  if 0 ≤ grid then
    String.ofList
      (digits ++ List.replicate grid.toNat '0')
  else
    let places := (-grid).toNat
    let padded :=
      List.replicate (places + 1 - digits.length) '0' ++
        digits
    let whole := padded.length - places
    String.ofList
      (padded.take whole ++ '.' :: padded.drop whole)

/-
  The text of a float: the shortest digits that read back,
  no point in whole numbers, and a sign on negative zero.
-/
def render (x : Float) : String :=
  let bits := x.toBits.toNat
  let sign := if bits >>> 63 = 0 then "" else "-"
  let exponentField := (bits >>> 52) % 0x800
  let fraction := bits % 0x10000000000000
  if exponentField = 0x7FF then
    if fraction = 0 then sign ++ "inf" else "NaN"
  else if exponentField = 0 && fraction = 0 then
    sign ++ "0"
  else
    let point :=
      (Interval.ofFields exponentField fraction).shortest
    sign ++ positional point.1 point.2

end Decimal

end Carnatic
