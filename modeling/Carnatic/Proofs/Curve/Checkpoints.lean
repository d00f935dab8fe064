import Carnatic.Proofs.Curve.Weight
import Carnatic.Proofs.Scalar.Order

/-
  Checkpoints in order.

  Points are sorted by the total order of all numbers, and
  checked by comparisons, for which the zeros of the floats
  are equal and what is not a number is nothing to compare
  with. Where all points lie in range, the two orders agree,
  so neighbours show every position that occurs twice, and
  checkpoints of which none is repeated increase strictly.

  Main declarations:
    * `Curve.sorted_eq_of_perm`
    * `Curve.repeated?_eq_none_iff`
    * `Curve.two_le_occurrences_of_repeated?`
    * `Curve.Spans` and `Curve.spans`
    * `Curve.ofPoints_points`
-/

------------------------------------------------------------
-- Positions
------------------------------------------------------------

namespace Carnatic

namespace Curve

section Positions

variable {R : Type} [Scalar R]

/- The number of points at a position. -/
def occurrences
    (points : List (Checkpoint R))
    (position : R) : Nat :=
  points.countP fun point =>
    Scalar.Equal point.position position

/- Checkpoints of a curve: in range, at positions that
increase strictly from the start to the end. -/
structure Spans
    (checkpoints : List (Checkpoint R)) : Prop where
  inRange : ∀ point ∈ checkpoints, InRange point
  increasing :
    checkpoints.Pairwise fun first second =>
      first.position < second.position
  start : StandsAt (Scalar.ofInt 0) checkpoints.head?
  finish : StandsAt (Scalar.ofInt 1) checkpoints.getLast?

end Positions

------------------------------------------------------------
-- Sorted Points
------------------------------------------------------------

section Sorting

variable {R : Type} [Scalar R]
variable {points others : List (Checkpoint R)}
variable {position : R}

theorem sorted_perm (points : List (Checkpoint R)) :
    (sorted points).Perm points :=
  List.mergeSort_perm _ _

theorem inRange_sorted
    (hInside : ∀ point ∈ points, InRange point) :
    ∀ point ∈ sorted points, InRange point :=
  fun point hPoint => hInside point
    ((sorted_perm points).mem_iff.mp hPoint)

theorem occurrences_eq_of_perm
    (hPerm : points.Perm others)
    (position : R) :
    occurrences points position =
      occurrences others position :=
  hPerm.countP_eq _

/- Whether positions are distinct does not depend on the order
of the points. -/
theorem distinct_iff_of_perm
    (hPerm : points.Perm others) :
    (points.Pairwise fun first second =>
        ¬Scalar.Equal first.position second.position) ↔
      others.Pairwise fun first second =>
        ¬Scalar.Equal first.position second.position :=
  hPerm.pairwise_iff fun hDistinct hSame =>
    hDistinct hSame.symm

variable [LawfulScalar R]

theorem pairwise_precedes_sorted
    (points : List (Checkpoint R)) :
    (sorted points).Pairwise fun first second =>
      Scalar.precedes first.position second.position =
        true := by
  apply List.pairwise_mergeSort
  · intro first second third
    exact LawfulScalar.precedes_trans
  · intro first second
    rw [Bool.or_eq_true]
    exact LawfulScalar.precedes_total _ _

/- Sorted points in range do not go back. -/
theorem pairwise_le_sorted
    (hInside : ∀ point ∈ points, InRange point) :
    (sorted points).Pairwise fun first second =>
      first.position ≤ second.position := by
  apply (pairwise_precedes_sorted points).imp_of_mem
  intro first second hFirst hSecond hBefore
  have hSorted := inRange_sorted hInside
  exact LawfulScalar.le_of_precedes (hSorted first hFirst).1
    (hSorted second hSecond).1 hBefore

/- Sorting puts the same positions in the same order. -/
theorem positions_sorted_eq
    (hPerm : points.Perm others) :
    (sorted points).map Checkpoint.position =
      (sorted others).map Checkpoint.position := by
  have hSorted :
      ∀ list : List (Checkpoint R),
        ((sorted list).map Checkpoint.position).Pairwise
          fun low high => Scalar.precedes low high = true :=
    fun list =>
      List.pairwise_map.mpr (pairwise_precedes_sorted list)
  have hPositions :
      ((sorted points).map Checkpoint.position).Perm
        ((sorted others).map Checkpoint.position) :=
    (((sorted_perm points).trans hPerm).trans
      (sorted_perm others).symm).map _
  apply hPositions.eq_of_pairwise _ (hSorted points)
    (hSorted others)
  intro low high _ _
  exact LawfulScalar.precedes_antisymm

/- Points at distinct positions are sorted in one way only. -/
theorem sorted_eq_of_perm
    (hPerm : points.Perm others)
    (hInside : ∀ point ∈ points, InRange point)
    (hDistinct :
      points.Pairwise fun first second =>
        ¬Scalar.Equal first.position second.position) :
    sorted points = sorted others := by
  have hOthers : ∀ point ∈ others, InRange point :=
    fun point hPoint =>
      hInside point (hPerm.mem_iff.mpr hPoint)
  have hFirst :=
    (pairwise_le_sorted hInside).imp₂ (fun _ _ => And.intro)
      ((distinct_iff_of_perm (sorted_perm points)).mpr
        hDistinct)
  have hSecond :=
    (pairwise_le_sorted hOthers).imp₂ (fun _ _ => And.intro)
      ((distinct_iff_of_perm
        ((sorted_perm others).trans hPerm.symm)).mpr
          hDistinct)
  apply List.Perm.eq_of_pairwise _ hFirst hSecond
  · exact ((sorted_perm points).trans hPerm).trans
      (sorted_perm others).symm
  · intro first second _ _ hBefore hBehind
    exact absurd ⟨hBefore.1, hBehind.1⟩ hBefore.2

end Sorting

------------------------------------------------------------
-- Repeated Positions
------------------------------------------------------------

section Repeating

variable {R : Type} [Scalar R]
variable {points others : List (Checkpoint R)}
variable {position : R}

/- Which position is found depends on the positions only. -/
theorem repeated?_congr
    (hPositions :
      points.map Checkpoint.position =
        others.map Checkpoint.position) :
    repeated? points = repeated? others := by
  induction points generalizing others with
  | nil =>
      have hOthers := List.map_eq_nil_iff.mp hPositions.symm
      rw [hOthers]
  | cons first rest ih =>
      rcases others with _ | ⟨other, otherRest⟩
      · simp at hPositions
      · rw [List.map_cons, List.map_cons,
          List.cons.injEq] at hPositions
        have hRest := ih hPositions.2
        rcases rest with _ | ⟨second, rest⟩
        · have hOthers :=
            List.map_eq_nil_iff.mp hPositions.2.symm
          rw [hOthers]
          rfl
        · rcases otherRest with _ | ⟨another, otherRest⟩
          · simp at hPositions
          · have hSecond :
                second.position = another.position :=
              (List.cons.inj hPositions.2).1
            unfold repeated?
            rw [hPositions.1, hSecond, hRest]

/- What is found is the position of a point. -/
theorem exists_mem_of_repeated?
    (hRepeated : repeated? points = some position) :
    ∃ point ∈ points, point.position = position := by
  fun_induction repeated? points with
  | case1 first second rest hBack =>
      refine ⟨second, ?_, Option.some.inj hRepeated⟩
      exact List.mem_cons_of_mem first List.mem_cons_self
  | case2 first second rest hOn ih =>
      rcases ih hRepeated with ⟨point, hPoint, hPosition⟩
      exact ⟨point, List.mem_cons_of_mem first hPoint,
        hPosition⟩
  | case3 => cases hRepeated

theorem occurrences_cons
    (first : Checkpoint R)
    (rest : List (Checkpoint R))
    (position : R) :
    occurrences (first :: rest) position =
      occurrences rest position +
        if Scalar.Equal first.position position then 1
          else 0 := by
  unfold occurrences
  rw [List.countP_cons]
  simp only [decide_eq_true_eq]

variable [LawfulScalar R]

/- In points that do not go back, what bounds one of them
bounds the first. -/
theorem head_le_of_mem
    {first point : Checkpoint R}
    {rest : List (Checkpoint R)}
    (hSorted :
      (first :: rest).Pairwise fun first second =>
        first.position ≤ second.position)
    (hPoint : point ∈ first :: rest)
    (hBound : point.position ≤ position) :
    first.position ≤ position := by
  rcases List.mem_cons.mp hPoint with rfl | hLater
  · exact hBound
  · have hForth := List.rel_of_pairwise_cons hSorted hLater
    exact LawfulScalar.le_trans hForth hBound

/- In points that do not go back, none is found exactly when
no position occurs twice. -/
theorem repeated?_eq_none_iff
    (hSorted :
      points.Pairwise fun first second =>
        first.position ≤ second.position) :
    repeated? points = none ↔
      points.Pairwise fun first second =>
        ¬Scalar.Equal first.position second.position := by
  fun_induction repeated? points with
  | case1 first second rest hBack =>
      have hForth :=
        List.rel_of_pairwise_cons hSorted List.mem_cons_self
      constructor
      · intro hNone
        cases hNone
      · intro hDistinct
        have hNot := List.rel_of_pairwise_cons hDistinct
          List.mem_cons_self
        exact absurd ⟨hForth, hBack⟩ hNot
  | case2 first second rest hOn ih =>
      have hRest := ih (List.Pairwise.of_cons hSorted)
      constructor
      · intro hNone
        apply List.Pairwise.cons _ (hRest.mp hNone)
        intro other hOther hSame
        -- Whatever goes back to the first point drags the
        -- second one along.
        exact hOn (head_le_of_mem
          (List.Pairwise.of_cons hSorted) hOther hSame.2)
      · intro hDistinct
        exact hRest.mpr (List.Pairwise.of_cons hDistinct)
  | case3 points hShort =>
      rcases points with _ | ⟨first, _ | ⟨second, rest⟩⟩
      · simp
      · simp
      · exact absurd rfl (hShort first second rest)

/- The zeros of the floats are at one position. -/
example :
    repeated?
        [(⟨-0.0, 0.25⟩ : Checkpoint Float), ⟨0.0, 0.5⟩] =
      some 0.0 := by
  decide +kernel

/- In points that do not go back, what occurs is not below the
first position. -/
theorem head_le_of_occurrences
    {first : Checkpoint R}
    {rest : List (Checkpoint R)}
    (hSorted :
      (first :: rest).Pairwise fun first second =>
        first.position ≤ second.position)
    (hOccurs : 0 < occurrences (first :: rest) position) :
    first.position ≤ position := by
  rcases List.countP_pos_iff.mp hOccurs with
    ⟨point, hPoint, hCounts⟩
  have hEqual := of_decide_eq_true hCounts
  exact head_le_of_mem hSorted hPoint hEqual.1

/- In points that do not go back, the position that is found
occurs twice. -/
theorem two_le_occurrences_of_repeated?
    (hSorted :
      points.Pairwise fun first second =>
        first.position ≤ second.position)
    (hRepeated : repeated? points = some position) :
    2 ≤ occurrences points position := by
  fun_induction repeated? points with
  | case1 first second rest hBack =>
      have hForth :=
        List.rel_of_pairwise_cons hSorted List.mem_cons_self
      have hSame : second.position = position :=
        Option.some.inj hRepeated
      subst hSame
      have hFirst :
          Scalar.Equal first.position second.position :=
        ⟨hForth, hBack⟩
      have hSecond :
          Scalar.Equal second.position second.position :=
        ⟨LawfulScalar.le_trans hBack hForth,
          LawfulScalar.le_trans hBack hForth⟩
      rw [occurrences_cons, occurrences_cons,
        if_pos hFirst, if_pos hSecond]
      omega
  | case2 first second rest hOn ih =>
      have hTwice := ih (List.Pairwise.of_cons hSorted)
        hRepeated
      rw [occurrences_cons]
      omega
  | case3 => cases hRepeated

/- And no position below it does. -/
theorem le_of_two_le_occurrences
    {other : R}
    (hSorted :
      points.Pairwise fun first second =>
        first.position ≤ second.position)
    (hRepeated : repeated? points = some position)
    (hTwice : 2 ≤ occurrences points other) :
    position ≤ other := by
  fun_induction repeated? points with
  | case1 first second rest hBack =>
      -- Of two points at most one is the first.
      have hTail :
          0 < occurrences (second :: rest) other := by
        rw [occurrences_cons] at hTwice
        split at hTwice
        · omega
        · omega
      rw [← Option.some.inj hRepeated]
      exact head_le_of_occurrences
        (List.Pairwise.of_cons hSorted) hTail
  | case2 first second rest hOn ih =>
      have hRest := List.Pairwise.of_cons hSorted
      apply ih hRest hRepeated
      rw [occurrences_cons] at hTwice
      by_cases hFirst :
          Scalar.Equal first.position other
      · -- The first point shares its position with none.
        rw [if_pos hFirst] at hTwice
        have hTail :
            0 < occurrences (second :: rest) other := by
          omega
        have hForth := head_le_of_occurrences hRest hTail
        exact absurd
          (LawfulScalar.le_trans hForth hFirst.2) hOn
      · rw [if_neg hFirst] at hTwice
        exact hTwice
  | case3 => cases hRepeated

end Repeating

------------------------------------------------------------
-- Ends
------------------------------------------------------------

section Ends

variable {R : Type} [Scalar R] [LawfulScalar R]
variable {points : List (Checkpoint R)}

/- Of points in range that do not go back, the first stands at
the start if any does. -/
theorem standsAt_head?_iff
    (hInside : ∀ point ∈ points, InRange point)
    (hSorted :
      points.Pairwise fun first second =>
        first.position ≤ second.position) :
    StandsAt (Scalar.ofInt 0) points.head? ↔
      ∃ point ∈ points,
        Scalar.Equal point.position (Scalar.ofInt 0) := by
  constructor
  · intro hStands
    rcases hStands with ⟨first, hFirst, hEqual⟩
    exact ⟨first, List.mem_of_head? hFirst, hEqual⟩
  · intro hSome
    rcases hSome with ⟨point, hPoint, hEqual⟩
    rcases points with _ | ⟨first, rest⟩
    · cases hPoint
    · refine ⟨first, rfl, ?_, ?_⟩
      · exact head_le_of_mem hSorted hPoint hEqual.1
      · exact (hInside first List.mem_cons_self).1.1

/- And the last stands at the end. -/
theorem standsAt_getLast?_iff
    (hInside : ∀ point ∈ points, InRange point)
    (hSorted :
      points.Pairwise fun first second =>
        first.position ≤ second.position) :
    StandsAt (Scalar.ofInt 1) points.getLast? ↔
      ∃ point ∈ points,
        Scalar.Equal point.position (Scalar.ofInt 1) := by
  constructor
  · intro hStands
    rcases hStands with ⟨last, hLast, hEqual⟩
    exact ⟨last, List.mem_of_getLast? hLast, hEqual⟩
  · intro hSome
    rcases hSome with ⟨point, hPoint, hEqual⟩
    rcases List.eq_nil_or_concat points with
      rfl | ⟨front, last, rfl⟩
    · cases hPoint
    · refine ⟨last, by simp, ?_, ?_⟩
      · exact (hInside last (by simp)).1.2
      · rw [List.concat_eq_append] at hPoint hSorted
        rcases List.mem_append.mp hPoint with
          hFront | hSelf
        · have hForth :=
            (List.pairwise_append.mp hSorted).2.2 point
              hFront last (by simp)
          exact LawfulScalar.le_trans hEqual.2 hForth
        · rw [← List.mem_singleton.mp hSelf]
          exact hEqual.2

/- Sorting makes neighbours of points at one position. -/
theorem repeated?_sorted_eq_none_iff
    (hInside : ∀ point ∈ points, InRange point) :
    repeated? (sorted points) = none ↔
      points.Pairwise fun first second =>
        ¬Scalar.Equal first.position second.position :=
  (repeated?_eq_none_iff (pairwise_le_sorted hInside)).trans
    (distinct_iff_of_perm (sorted_perm points))

theorem standsAt_head?_sorted_iff
    (hInside : ∀ point ∈ points, InRange point) :
    StandsAt (Scalar.ofInt 0) (sorted points).head? ↔
      ∃ point ∈ points,
        Scalar.Equal point.position (Scalar.ofInt 0) := by
  rw [standsAt_head?_iff (inRange_sorted hInside)
    (pairwise_le_sorted hInside)]
  simp only [(sorted_perm points).mem_iff]

theorem standsAt_getLast?_sorted_iff
    (hInside : ∀ point ∈ points, InRange point) :
    StandsAt (Scalar.ofInt 1) (sorted points).getLast? ↔
      ∃ point ∈ points,
        Scalar.Equal point.position (Scalar.ofInt 1) := by
  rw [standsAt_getLast?_iff (inRange_sorted hInside)
    (pairwise_le_sorted hInside)]
  simp only [(sorted_perm points).mem_iff]

end Ends

------------------------------------------------------------
-- Checkpoints Of Curves
------------------------------------------------------------

section Checkpoints

variable {R : Type} [Scalar R] [LawfulScalar R]

/- Of two numbers in `[0, 1]` one is not beyond the other. -/
theorem le_of_not_le
    {x y : R}
    (hFirst : Scalar.InUnit x)
    (hSecond : Scalar.InUnit y)
    (hNot : ¬y ≤ x) :
    x ≤ y := by
  rcases LawfulScalar.precedes_total x y with
    hBefore | hBehind
  · exact LawfulScalar.le_of_precedes hFirst hSecond hBefore
  · exact absurd
      (LawfulScalar.le_of_precedes hSecond hFirst hBehind)
      hNot

/- Points in range of which none is repeated increase
strictly. -/
theorem pairwise_lt_of_repeated?
    {points : List (Checkpoint R)}
    (hInside : ∀ point ∈ points, InRange point)
    (hNone : repeated? points = none) :
    points.Pairwise fun first second =>
      first.position < second.position := by
  fun_induction repeated? points with
  | case1 first second rest hBack => cases hNone
  | case2 first second rest hOn ih =>
      rcases List.forall_mem_cons.mp hInside with
        ⟨hFirst, hRest⟩
      have hSecond := (List.forall_mem_cons.mp hRest).1
      have hForth :=
        le_of_not_le hFirst.1 hSecond.1 hOn
      have hIncreasing := ih hRest hNone
      apply List.Pairwise.cons _ hIncreasing
      intro other hOther
      rw [LawfulScalar.lt_iff_not_le hFirst.1
        (hRest other hOther).1]
      intro hBack
      -- What goes back to the first point goes back to the
      -- second one.
      have hBehind := LawfulScalar.le_trans hBack hForth
      rcases List.mem_cons.mp hOther with rfl | hLater
      · exact hOn hBack
      · have hLess :=
          List.rel_of_pairwise_cons hIncreasing hLater
        rw [LawfulScalar.lt_iff_not_le hSecond.1
          (hRest other hOther).1] at hLess
        exact hLess hBehind
  | case3 points hShort =>
      rcases points with _ | ⟨first, _ | ⟨second, rest⟩⟩
      · exact .nil
      · exact List.pairwise_singleton _ first
      · exact absurd rfl (hShort first second rest)

/- The checkpoints of a curve increase strictly from the start
to the end. -/
theorem spans (curve : Curve R) :
    Spans curve.checkpoints where
  inRange := curve.leadAcross.inRange
  increasing :=
    pairwise_lt_of_repeated? curve.leadAcross.inRange
      curve.leadAcross.none_repeated
  start := curve.leadAcross.start
  finish := curve.leadAcross.finish

/- They are in order. -/
theorem sorted_checkpoints (curve : Curve R) :
    sorted curve.checkpoints = curve.checkpoints := by
  apply List.mergeSort_of_pairwise
  apply curve.spans.increasing.imp_of_mem
  intro first second hFirst hSecond hLess
  have hStart := (curve.spans.inRange first hFirst).1
  have hEnd := (curve.spans.inRange second hSecond).1
  rw [LawfulScalar.lt_iff_not_le hStart hEnd] at hLess
  rcases LawfulScalar.precedes_total first.position
    second.position with hBefore | hBehind
  · exact hBefore
  · exact absurd
      (LawfulScalar.le_of_precedes hEnd hStart hBehind)
      hLess

/- The points that a curve leads along. -/
def points (curve : Curve R) : List (R × R) :=
  curve.checkpoints.map fun point =>
    (point.position, point.weight)

/- Every curve is accepted: it is the one through its own
points. -/
theorem ofPoints_points (curve : Curve R) :
    ofPoints curve.name curve.points = .ok curve := by
  have hPoints : pointsOf curve.points = curve.checkpoints := by
    rw [pointsOf, points, List.map_map]
    exact List.map_id curve.checkpoints
  rw [ofPoints_eq_ok_iff, hPoints, curve.sorted_checkpoints]
  exact ⟨rfl, rfl⟩

end Checkpoints

end Curve

end Carnatic
