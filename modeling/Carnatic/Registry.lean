import Carnatic.Curve
import Carnatic.NameTable

/-
  Registries of curves.

  A song refers to curves by name.  The built-in registry
  holds the flat curve, which keeps the starting pitch, and
  the slide, which moves evenly to the next one.

  Key definitions include:
    * `Registry`
    * `Registry.register`
    * `Registry.builtin`
    * `Registry.get?`
-/

------------------------------------------------------------
-- Registries
------------------------------------------------------------

namespace Carnatic

/- Curves by their names. -/
structure Registry (R : Type) [Scalar R] where
  curves : NameTable (Curve R)

namespace Registry

variable {R : Type} [Scalar R]

/- The registry without curves. -/
def empty : Registry R where
  curves := NameTable.empty

/- Add a curve, replacing one of the same name. -/
def register
    (registry : Registry R)
    (curve : Curve R) : Registry R where
  curves := registry.curves.insert curve.name curve

/- The curve of a name. -/
def get?
    (registry : Registry R)
    (name : String) : Option (Curve R) :=
  registry.curves.get? name

/- All names, in increasing order. -/
def names (registry : Registry R) : List String :=
  registry.curves.names

/- The number of curves. -/
def size (registry : Registry R) : Nat :=
  registry.curves.size

/- A registry without curves. -/
def isEmpty (registry : Registry R) : Bool :=
  registry.size = 0

------------------------------------------------------------
-- Built-in Curves
------------------------------------------------------------

/- The curve `:`, which stays at the starting pitch. -/
def flat : Curve R where
  name := ":"
  checkpoints :=
    [⟨Scalar.ofInt 0, Scalar.ofInt 0⟩,
      ⟨Scalar.ofInt 1, Scalar.ofInt 0⟩]
  leadAcross := Curve.leadAcross_straight Scalar.inUnit_zero

/- The curve `:/`, which moves evenly to the next pitch. -/
def slide : Curve R where
  name := ":/"
  checkpoints :=
    [⟨Scalar.ofInt 0, Scalar.ofInt 0⟩,
      ⟨Scalar.ofInt 1, Scalar.ofInt 1⟩]
  leadAcross := Curve.leadAcross_straight Scalar.inUnit_one

/- The registry of the flat curve and the slide. -/
def builtin : Registry R :=
  (empty.register flat).register slide

end Registry

end Carnatic
