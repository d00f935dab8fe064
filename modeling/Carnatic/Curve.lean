import Carnatic.Scalar
import Carnatic.Decimal.Shortest

/-
  Curves of gamakas.

  A curve maps time, which runs from zero to one, to a weight
  in `[0, 1]`: how far the pitch has moved from the starting
  svara to the next one.  It is linear between checkpoints,
  whose positions increase strictly from zero to one.

  Key definitions include:
    * `Checkpoint`
    * `Curve.LeadAcross`
    * `Curve`
    * `Curve.Error`
    * `Curve.ofPoints`
    * `Curve.weight`
    * `Curve.sample`
-/

------------------------------------------------------------
-- Checkpoints
------------------------------------------------------------

namespace Carnatic

/- A point that a curve passes through. -/
structure Checkpoint (R : Type) where
  position : R
  weight : R
deriving BEq, DecidableEq, Repr

namespace Curve

variable {R : Type} [Scalar R]

/- Both coordinates of a checkpoint lie in `[0, 1]`. -/
def InRange (point : Checkpoint R) : Prop :=
  Scalar.InUnit point.position ∧ Scalar.InUnit point.weight

instance (point : Checkpoint R) :
    Decidable (InRange point) :=
  inferInstanceAs (Decidable (_ ∧ _))

/- The first position, in a sorted list, that does not lie
beyond the one before it. -/
def repeated? : List (Checkpoint R) → Option R
| first :: second :: rest =>
    if second.position ≤ first.position then
      some second.position
    else
      repeated? (second :: rest)
| _ => none

/- Some checkpoint stands at the given end of the curve. -/
def StandsAt
    (position : R)
    (point? : Option (Checkpoint R)) : Prop :=
  ∃ point ∈ point?,
    point.position ≤ position ∧ position ≤ point.position

instance
    (position : R)
    (point? : Option (Checkpoint R)) :
    Decidable (StandsAt position point?) :=
  match point? with
  | none => .isFalse (by simp [StandsAt])
  | some point =>
      decidable_of_iff
        (point.position ≤ position ∧
          position ≤ point.position)
        (by simp [StandsAt])

/-
  Checkpoints that a curve leads along: two at least, all in
  range, each beyond the one before it, the first at the start
  and the last at the end.
-/
structure LeadAcross
    (checkpoints : List (Checkpoint R)) : Prop where
  two_le_length : 2 ≤ checkpoints.length
  inRange : ∀ point ∈ checkpoints, InRange point
  none_repeated : repeated? checkpoints = none
  start : StandsAt (Scalar.ofInt 0) checkpoints.head?
  finish : StandsAt (Scalar.ofInt 1) checkpoints.getLast?

instance (checkpoints : List (Checkpoint R)) :
    Decidable (LeadAcross checkpoints) :=
  decidable_of_iff
    (2 ≤ checkpoints.length ∧
      (∀ point ∈ checkpoints, InRange point) ∧
      repeated? checkpoints = none ∧
      StandsAt (Scalar.ofInt 0) checkpoints.head? ∧
      StandsAt (Scalar.ofInt 1) checkpoints.getLast?)
    ⟨fun ⟨hMany, hInside, hNone, hStart, hFinish⟩ =>
        ⟨hMany, hInside, hNone, hStart, hFinish⟩,
      fun ⟨hMany, hInside, hNone, hStart, hFinish⟩ =>
        ⟨hMany, hInside, hNone, hStart, hFinish⟩⟩

/- From the start straight to a weight at the end. -/
theorem leadAcross_straight
    {weight : R}
    (hWeight : Scalar.InUnit weight) :
    LeadAcross
      [⟨Scalar.ofInt 0, Scalar.ofInt 0⟩,
        ⟨Scalar.ofInt 1, weight⟩] where
  two_le_length := Nat.le_refl 2
  inRange := by
    intro point hPoint
    rcases List.mem_cons.mp hPoint with rfl | hLast
    · exact ⟨Scalar.inUnit_zero, Scalar.inUnit_zero⟩
    · rw [List.mem_singleton.mp hLast]
      exact ⟨Scalar.inUnit_one, hWeight⟩
  none_repeated := by
    simp [repeated?, Scalar.not_one_le_zero]
  start :=
    ⟨_, rfl, Scalar.zero_le_zero, Scalar.zero_le_zero⟩
  finish :=
    ⟨_, rfl, Scalar.one_le_one, Scalar.one_le_one⟩

end Curve

------------------------------------------------------------
-- Curves
------------------------------------------------------------

/- A curve: its name and the checkpoints that it leads along,
in order. -/
structure Curve (R : Type) [Scalar R] where
  name : String
  checkpoints : List (Checkpoint R)
  leadAcross : Curve.LeadAcross checkpoints
deriving DecidableEq, Repr

namespace Curve

variable {R : Type} [Scalar R]

/- Curves of one name along the same checkpoints are equal. -/
theorem eq_of_checkpoints_eq
    {curve other : Curve R}
    (hName : curve.name = other.name)
    (hCheckpoints : curve.checkpoints = other.checkpoints) :
    curve = other := by
  cases curve
  cases other
  cases hName
  cases hCheckpoints
  rfl

------------------------------------------------------------
-- Construction
------------------------------------------------------------

/- Why points make no curve. -/
inductive Error (R : Type)
| tooFewCheckpoints (count : Nat)
| outOfRange (position weight : R)
| duplicatePosition (position : R)
| missingEndpoint (position : R)
deriving DecidableEq, Repr

/- The points of a curve before they are put in order. -/
def pointsOf
    (points : List (R × R)) : List (Checkpoint R) :=
  points.map fun (position, weight) => ⟨position, weight⟩

/- Checkpoints in the order of their positions; those at one
position keep the order they were given in. -/
def sorted
    (points : List (Checkpoint R)) : List (Checkpoint R) :=
  points.mergeSort fun first second =>
    Scalar.precedes first.position second.position

/- The first fault of points in order: two points at one
position, or no point at the start or at the end. -/
def faultInOrder?
    (inOrder : List (Checkpoint R)) : Option (Error R) :=
  match repeated? inOrder with
  | some position => some (.duplicatePosition position)
  | none =>
      if ¬StandsAt (Scalar.ofInt 0) inOrder.head? then
        some (.missingEndpoint (Scalar.ofInt 0))
      else if ¬StandsAt (Scalar.ofInt 1) inOrder.getLast? then
        some (.missingEndpoint (Scalar.ofInt 1))
      else
        none

/-
  The first fault of points in any order: too few points, a
  point out of range in the given order, or a fault that shows
  once they are in order.
-/
def fault?
    (points : List (Checkpoint R)) : Option (Error R) :=
  if points.length < 2 then
    some (.tooFewCheckpoints points.length)
  else
    match points.find? fun point => ¬InRange point with
    | some point =>
        some (.outOfRange point.position point.weight)
    | none => faultInOrder? (sorted points)

/- Points in order have no fault where none is repeated and
both ends are there. -/
theorem faultInOrder?_eq_none_iff
    {inOrder : List (Checkpoint R)} :
    faultInOrder? inOrder = none ↔
      repeated? inOrder = none ∧
        StandsAt (Scalar.ofInt 0) inOrder.head? ∧
        StandsAt (Scalar.ofInt 1) inOrder.getLast? := by
  unfold faultInOrder?
  cases repeated? inOrder with
  | some position => simp
  | none =>
      by_cases hStart :
          StandsAt (Scalar.ofInt 0) inOrder.head?
      · by_cases hFinish :
            StandsAt (Scalar.ofInt 1) inOrder.getLast?
        · simp [hStart, hFinish]
        · simp [hStart, hFinish]
      · simp [hStart]

/- Points without a fault lead across once they are in
order. -/
theorem fault?_eq_none_iff
    {points : List (Checkpoint R)} :
    fault? points = none ↔ LeadAcross (sorted points) := by
  have hLength : (sorted points).length = points.length :=
    List.length_mergeSort points
  have hInside :
      ((points.find? fun point => ¬InRange point) = none) ↔
        ∀ point ∈ sorted points, InRange point := by
    simp [sorted, List.mem_mergeSort]
  unfold fault?
  constructor
  · intro hNone
    split at hNone
    · cases hNone
    · rename_i hMany
      split at hNone
      · cases hNone
      · rename_i hFind
        rcases faultInOrder?_eq_none_iff.mp hNone with
          ⟨hDistinct, hStart, hFinish⟩
        exact ⟨hLength ▸ Nat.not_lt.mp hMany,
          hInside.mp hFind, hDistinct, hStart, hFinish⟩
  · intro hAcross
    have hMany : ¬points.length < 2 :=
      Nat.not_lt.mpr (hLength ▸ hAcross.two_le_length)
    rw [if_neg hMany, hInside.mpr hAcross.inRange]
    exact faultInOrder?_eq_none_iff.mpr
      ⟨hAcross.none_repeated, hAcross.start, hAcross.finish⟩

/- The curve through some points, given in any order, or their
first fault. -/
def ofPoints
    (name : String)
    (points : List (R × R)) : Except (Error R) (Curve R) :=
  match hFault : fault? (pointsOf points) with
  | some error => .error error
  | none =>
      .ok ⟨name, sorted (pointsOf points),
        fault?_eq_none_iff.mp hFault⟩

/- Points are rejected for their first fault. -/
theorem ofPoints_eq_error_iff
    {name : String}
    {points : List (R × R)}
    {error : Error R} :
    ofPoints name points = .error error ↔
      fault? (pointsOf points) = some error := by
  unfold ofPoints
  split
  · rename_i hFault
    simp [hFault]
  · rename_i hFault
    simp [hFault]

/- Points without a fault make the curve along them. -/
theorem ofPoints_eq_ok_iff
    {name : String}
    {points : List (R × R)}
    {curve : Curve R} :
    ofPoints name points = .ok curve ↔
      curve.name = name ∧
        curve.checkpoints = sorted (pointsOf points) := by
  constructor
  · intro hAccepted
    unfold ofPoints at hAccepted
    split at hAccepted
    · cases hAccepted
    · cases hAccepted
      exact ⟨rfl, rfl⟩
  · rintro ⟨hName, hCheckpoints⟩
    have hNone : fault? (pointsOf points) = none :=
      fault?_eq_none_iff.mpr
        (hCheckpoints ▸ curve.leadAcross)
    unfold ofPoints
    split
    · rename_i hFault
      rw [hNone] at hFault
      cases hFault
    · exact congrArg Except.ok
        (eq_of_checkpoints_eq hName.symm hCheckpoints.symm)

------------------------------------------------------------
-- Sampling
------------------------------------------------------------

/- The weight at a time between two checkpoints, on the
straight line through them. -/
def between
    (first second : Checkpoint R)
    (time : R) : R :=
  let share := (time - first.position) /
    (second.position - first.position)
  first.weight + share * (second.weight - first.weight)

/-
  The weight at a time: that of the first two neighbours with
  the time between them, or else that of the last checkpoint.
-/
def weightFrom :
    List (Checkpoint R) → R → R
| [], _ => Scalar.ofInt 0
| [last], _ => last.weight
| first :: second :: rest, time =>
    if first.position ≤ time ∧ time ≤ second.position then
      between first second time
    else
      weightFrom (second :: rest) time

/- The weight of a curve at a time, which is first brought
into `[0, 1]`. -/
def weight
    (curve : Curve R)
    (time : R) : R :=
  weightFrom curve.checkpoints (Scalar.clampUnit time)

/- The pitch at a time on the way from one pitch to another,
in semitones. -/
def sample
    (curve : Curve R)
    (time : R)
    (start target : Int) : R :=
  let first : R := Scalar.ofInt start
  let last : R := Scalar.ofInt target
  first + curve.weight time * (last - first)

------------------------------------------------------------
-- Error Texts
------------------------------------------------------------

/- The text of a fault. -/
def Error.message : Error Float → String
| .tooFewCheckpoints count =>
    "a curve needs at least 2 checkpoints, got " ++
      toString count
| .outOfRange position weight =>
    "checkpoint (" ++ Decimal.render position ++ ", " ++
      Decimal.render weight ++ ") is outside [0, 1]"
| .duplicatePosition position =>
    "duplicate checkpoint position " ++
      Decimal.render position
| .missingEndpoint position =>
    "missing checkpoint at position " ++
      Decimal.render position

end Curve

end Carnatic
