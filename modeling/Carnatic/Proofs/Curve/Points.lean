import Carnatic.Proofs.Curve.Checkpoints

/-
  Points that make a curve.

  Points are accepted when they lie in range, at positions of
  their own from the start to the end. All others are rejected
  for their first fault. The order in which points are given
  does not matter, but for the point that is named where
  several are out of range.

  Main declarations:
    * `Curve.MakeCurve`
    * `Curve.HasFault`
    * `Curve.exists_ofPoints_eq_ok_iff`
    * `Curve.ofPoints_of_perm`
    * `Curve.AreJudged`
    * `Curve.areJudged`
-/

------------------------------------------------------------
-- Specification
------------------------------------------------------------

namespace Carnatic

namespace Curve

section Specification

variable {R : Type} [Scalar R]

/- Points that make a curve: two of them at least, all in
range, no two at one position, and one at either end. -/
structure MakeCurve
    (points : List (Checkpoint R)) : Prop where
  two_le_length : 2 ≤ points.length
  inRange : ∀ point ∈ points, InRange point
  distinct :
    points.Pairwise fun first second =>
      ¬Scalar.Equal first.position second.position
  start :
    ∃ point ∈ points,
      Scalar.Equal point.position (Scalar.ofInt 0)
  finish :
    ∃ point ∈ points,
      Scalar.Equal point.position (Scalar.ofInt 1)

/-
  The fault of some points. Of several the first counts: too
  few points, then a point out of range, the first in the
  given order, then a position that occurs twice, the lowest
  of them, and then a missing start or end.
-/
inductive HasFault
    (points : List (Checkpoint R)) : Error R → Prop
| tooFew
    (hFew : points.length < 2) :
    HasFault points (.tooFewCheckpoints points.length)
| outOfRange
    (hMany : 2 ≤ points.length)
    {front behind : List (Checkpoint R)}
    {point : Checkpoint R}
    (hPoints : points = front ++ point :: behind)
    (hFront : ∀ other ∈ front, InRange other)
    (hOutside : ¬InRange point) :
    HasFault points (.outOfRange point.position point.weight)
| duplicate
    (hMany : 2 ≤ points.length)
    (hInside : ∀ point ∈ points, InRange point)
    {point : Checkpoint R}
    (hPoint : point ∈ points)
    (hTwice : 2 ≤ occurrences points point.position)
    (hLeast :
      ∀ position,
        2 ≤ occurrences points position →
          point.position ≤ position) :
    HasFault points (.duplicatePosition point.position)
| noStart
    (hMany : 2 ≤ points.length)
    (hInside : ∀ point ∈ points, InRange point)
    (hDistinct :
      points.Pairwise fun first second =>
        ¬Scalar.Equal first.position second.position)
    (hNone :
      ∀ point ∈ points,
        ¬Scalar.Equal point.position (Scalar.ofInt 0)) :
    HasFault points (.missingEndpoint (Scalar.ofInt 0))
| noFinish
    (hMany : 2 ≤ points.length)
    (hInside : ∀ point ∈ points, InRange point)
    (hDistinct :
      points.Pairwise fun first second =>
        ¬Scalar.Equal first.position second.position)
    (hStart :
      ∃ point ∈ points,
        Scalar.Equal point.position (Scalar.ofInt 0))
    (hNone :
      ∀ point ∈ points,
        ¬Scalar.Equal point.position (Scalar.ofInt 1)) :
    HasFault points (.missingEndpoint (Scalar.ofInt 1))

/- Outcomes that are the same, but for the point that is
named where points are out of range. -/
inductive SameButPoint :
    Except (Error R) (Curve R) →
      Except (Error R) (Curve R) → Prop
| same (outcome : Except (Error R) (Curve R)) :
    SameButPoint outcome outcome
| outOfRange (position weight other otherWeight : R) :
    SameButPoint (.error (.outOfRange position weight))
      (.error (.outOfRange other otherWeight))

end Specification

------------------------------------------------------------
-- Outcomes
------------------------------------------------------------

section Outcomes

variable {R : Type} [Scalar R]
variable {name : String}
variable {points others : List (R × R)}

theorem fault?_of_few
    {points : List (Checkpoint R)}
    (hFew : points.length < 2) :
    fault? points = some (.tooFewCheckpoints points.length) :=
  if_pos hFew

theorem fault?_of_outside
    {points : List (Checkpoint R)}
    {point : Checkpoint R}
    (hMany : ¬points.length < 2)
    (hFind :
      (points.find? fun point => ¬InRange point) =
        some point) :
    fault? points =
      some (.outOfRange point.position point.weight) := by
  rw [fault?, if_neg hMany, hFind]

theorem fault?_of_inside
    {points : List (Checkpoint R)}
    (hMany : ¬points.length < 2)
    (hInside : ∀ point ∈ points, InRange point) :
    fault? points = faultInOrder? (sorted points) := by
  have hFind :
      (points.find? fun point => ¬InRange point) = none := by
    simpa using hInside
  rw [fault?, if_neg hMany, hFind]

/- Points that are not all in range have a first one that is
not. -/
theorem exists_find?_of_outside
    {points : List (Checkpoint R)}
    (hOutside : ¬∀ point ∈ points, InRange point) :
    ∃ point,
      (points.find? fun point => ¬InRange point) =
        some point := by
  apply Option.isSome_iff_exists.mp
  rw [List.find?_isSome]
  simpa using hOutside

variable [LawfulScalar R]

/- Points make a curve exactly when they lead across once they
are in order. -/
theorem leadAcross_sorted_iff
    {points : List (Checkpoint R)} :
    LeadAcross (sorted points) ↔ MakeCurve points := by
  have hLength : (sorted points).length = points.length :=
    (sorted_perm points).length_eq
  constructor
  · intro hAcross
    have hInside : ∀ point ∈ points, InRange point :=
      fun point hPoint => hAcross.inRange point
        ((sorted_perm points).mem_iff.mpr hPoint)
    exact {
      two_le_length := hLength ▸ hAcross.two_le_length
      inRange := hInside
      distinct :=
        (repeated?_sorted_eq_none_iff hInside).mp
          hAcross.none_repeated
      start :=
        (standsAt_head?_sorted_iff hInside).mp hAcross.start
      finish :=
        (standsAt_getLast?_sorted_iff hInside).mp
          hAcross.finish }
  · intro hMakes
    have hInside := hMakes.inRange
    exact {
      two_le_length := hLength ▸ hMakes.two_le_length
      inRange := inRange_sorted hInside
      none_repeated :=
        (repeated?_sorted_eq_none_iff hInside).mpr
          hMakes.distinct
      start :=
        (standsAt_head?_sorted_iff hInside).mpr hMakes.start
      finish :=
        (standsAt_getLast?_sorted_iff hInside).mpr
          hMakes.finish }

/- Points are accepted exactly when they make a curve. -/
theorem exists_ofPoints_eq_ok_iff :
    (∃ curve, ofPoints name points = .ok curve) ↔
      MakeCurve (pointsOf points) := by
  rw [← leadAcross_sorted_iff]
  simp only [ofPoints_eq_ok_iff]
  constructor
  · rintro ⟨curve, _, hCheckpoints⟩
    exact hCheckpoints ▸ curve.leadAcross
  · intro hAcross
    exact ⟨⟨name, _, hAcross⟩, rfl, rfl⟩

/- The checkpoints of an accepted curve are its points, in
order from the start to the end. -/
theorem spans_of_ofPoints
    {curve : Curve R}
    (hAccepted : ofPoints name points = .ok curve) :
    curve.checkpoints.Perm (pointsOf points) ∧
      Spans curve.checkpoints := by
  rcases ofPoints_eq_ok_iff.mp hAccepted with
    ⟨_, hCheckpoints⟩
  exact ⟨hCheckpoints ▸ sorted_perm _, curve.spans⟩

/- Sorted points are rejected for a repeated position, or else
for a missing end. -/
theorem hasFault_of_faultInOrder?
    {points : List (Checkpoint R)}
    {error : Error R}
    (hMany : 2 ≤ points.length)
    (hInside : ∀ point ∈ points, InRange point)
    (hRejected :
      faultInOrder? (sorted points) = some error) :
    HasFault points error := by
  unfold faultInOrder? at hRejected
  cases hRepeated : repeated? (sorted points) with
  | some position =>
      rw [hRepeated] at hRejected
      rcases exists_mem_of_repeated? hRepeated with
        ⟨point, hPoint, rfl⟩
      have hSorted := pairwise_le_sorted hInside
      have hPerm := sorted_perm points
      have hTwice :=
        two_le_occurrences_of_repeated? hSorted hRepeated
      rw [occurrences_eq_of_perm hPerm] at hTwice
      cases hRejected
      apply HasFault.duplicate hMany hInside
        (hPerm.mem_iff.mp hPoint) hTwice
      intro position hOther
      rw [← occurrences_eq_of_perm hPerm] at hOther
      exact le_of_two_le_occurrences hSorted hRepeated
        hOther
  | none =>
      rw [hRepeated] at hRejected
      have hDistinct :=
        (repeated?_sorted_eq_none_iff hInside).mp hRepeated
      simp only [standsAt_head?_sorted_iff hInside,
        standsAt_getLast?_sorted_iff hInside] at hRejected
      by_cases hStart :
          ∃ point ∈ points,
            Scalar.Equal point.position (Scalar.ofInt 0)
      · by_cases hFinish :
            ∃ point ∈ points,
              Scalar.Equal point.position (Scalar.ofInt 1)
        · simp [hStart, hFinish] at hRejected
        · simp only [hStart, hFinish, not_true_eq_false,
            not_false_eq_true, if_true, if_false]
            at hRejected
          cases hRejected
          exact .noFinish hMany hInside hDistinct hStart
            fun point hPoint hEqual =>
              hFinish ⟨point, hPoint, hEqual⟩
      · simp only [hStart, not_false_eq_true, if_true]
          at hRejected
        cases hRejected
        exact .noStart hMany hInside hDistinct
          fun point hPoint hEqual =>
            hStart ⟨point, hPoint, hEqual⟩

/- Points are rejected for the first fault that they have. -/
theorem hasFault_of_fault?
    {points : List (Checkpoint R)}
    {error : Error R}
    (hFault : fault? points = some error) :
    HasFault points error := by
  by_cases hFew : points.length < 2
  · rw [fault?_of_few hFew] at hFault
    cases hFault
    exact .tooFew hFew
  · have hMany : 2 ≤ points.length :=
      not_lt.mp hFew
    by_cases hInside : ∀ point ∈ points, InRange point
    · rw [fault?_of_inside hFew hInside] at hFault
      exact hasFault_of_faultInOrder? hMany hInside hFault
    · rcases exists_find?_of_outside hInside with
        ⟨point, hFind⟩
      rw [fault?_of_outside hFew hFind] at hFault
      cases hFault
      rcases List.find?_eq_some_iff_append.mp hFind with
        ⟨hOutside, front, behind, hPoints, hFront⟩
      apply HasFault.outOfRange hMany hPoints
      · simpa using hFront
      · simpa using hOutside

/- Once they are sorted, points in range show the same fault in
any order. -/
theorem faultInOrder?_sorted_of_perm
    {points others : List (Checkpoint R)}
    (hPerm : points.Perm others)
    (hInside : ∀ point ∈ points, InRange point) :
    faultInOrder? (sorted points) =
      faultInOrder? (sorted others) := by
  cases hRepeated : repeated? (sorted points) with
  | some position =>
      have hOthers := repeated?_congr (positions_sorted_eq hPerm)
      rw [hRepeated] at hOthers
      rw [faultInOrder?, faultInOrder?, hRepeated, ← hOthers]
  | none =>
      have hDistinct :=
        (repeated?_sorted_eq_none_iff hInside).mp hRepeated
      rw [sorted_eq_of_perm hPerm hInside hDistinct]

/- So they have the same fault as they are given. -/
theorem fault?_of_perm
    {points others : List (Checkpoint R)}
    (hPerm : points.Perm others)
    (hInside : ∀ point ∈ points, InRange point) :
    fault? points = fault? others := by
  have hOthers : ∀ point ∈ others, InRange point :=
    fun point hPoint =>
      hInside point (hPerm.mem_iff.mpr hPoint)
  have hLength := hPerm.length_eq
  by_cases hFew : points.length < 2
  · rw [fault?_of_few hFew, fault?_of_few (hLength ▸ hFew),
      hLength]
  · rw [fault?_of_inside hFew hInside,
      fault?_of_inside (hLength ▸ hFew) hOthers,
      faultInOrder?_sorted_of_perm hPerm hInside]

/- The order in which points in range are given does not
matter. -/
theorem ofPoints_of_perm
    (name : String)
    (hPerm : points.Perm others)
    (hInside : ∀ point ∈ pointsOf points, InRange point) :
    ofPoints name points = ofPoints name others := by
  have hPoints : (pointsOf points).Perm (pointsOf others) :=
    hPerm.map _
  cases hOutcome : ofPoints name points with
  | error error =>
      rw [ofPoints_eq_error_iff,
        fault?_of_perm hPoints hInside] at hOutcome
      exact (ofPoints_eq_error_iff.mpr hOutcome).symm
  | ok curve =>
      have hMakes :=
        exists_ofPoints_eq_ok_iff.mp ⟨curve, hOutcome⟩
      rw [ofPoints_eq_ok_iff, sorted_eq_of_perm hPoints hInside
        hMakes.distinct] at hOutcome
      exact (ofPoints_eq_ok_iff.mpr hOutcome).symm

/- The order in which the points are given matters at most for
the point that is named out of range. -/
theorem sameButPoint_of_perm
    (name : String)
    (hPerm : points.Perm others) :
    SameButPoint (ofPoints name points)
      (ofPoints name others) := by
  have hPoints : (pointsOf points).Perm (pointsOf others) :=
    hPerm.map _
  have hLength := hPoints.length_eq
  by_cases hInside :
      ∀ point ∈ pointsOf points, InRange point
  · rw [ofPoints_of_perm name hPerm hInside]
    exact .same _
  · by_cases hFew : (pointsOf points).length < 2
    · have hFault := fault?_of_few hFew
      have hOther := fault?_of_few (hLength ▸ hFew)
      rw [hLength] at hFault
      rw [ofPoints_eq_error_iff.mpr hFault,
        ofPoints_eq_error_iff.mpr hOther]
      exact .same _
    · have hOutside :
          ¬∀ point ∈ pointsOf others, InRange point :=
        fun hOthers => hInside fun point hPoint =>
          hOthers point (hPoints.mem_iff.mp hPoint)
      rcases exists_find?_of_outside hInside with
        ⟨point, hFind⟩
      rcases exists_find?_of_outside hOutside with
        ⟨other, hOther⟩
      rw [ofPoints_eq_error_iff.mpr
          (fault?_of_outside hFew hFind),
        ofPoints_eq_error_iff.mpr
          (fault?_of_outside (hLength ▸ hFew) hOther)]
      exact .outOfRange _ _ _ _

end Outcomes

------------------------------------------------------------
-- Points Of Floats
------------------------------------------------------------

/-
  The points of floats that make a curve are accepted, in any
  order, and kept as they are. All others are rejected for
  the first fault that they have.
-/
structure AreJudged
    (name : String)
    (points : List (Float × Float)) : Prop where
  accepted_iff :
    (∃ curve, ofPoints name points = .ok curve) ↔
      MakeCurve (pointsOf points)
  accepted :
    ∀ curve,
      ofPoints name points = .ok curve →
        curve.name = name ∧
          curve.checkpoints.Perm (pointsOf points) ∧
          Spans curve.checkpoints
  rejected :
    ∀ error,
      ofPoints name points = .error error →
        HasFault (pointsOf points) error
  permuted :
    ∀ others,
      points.Perm others →
        SameButPoint (ofPoints name points)
          (ofPoints name others)

theorem areJudged
    (name : String)
    (points : List (Float × Float)) :
    AreJudged name points where
  accepted_iff := exists_ofPoints_eq_ok_iff
  accepted := by
    intro curve hAccepted
    exact ⟨(ofPoints_eq_ok_iff.mp hAccepted).1,
      spans_of_ofPoints hAccepted⟩
  rejected _ hRejected :=
    hasFault_of_fault? (ofPoints_eq_error_iff.mp hRejected)
  permuted _ hPerm := sameButPoint_of_perm name hPerm

end Curve

end Carnatic
