import Carnatic.Proofs.Curve.Checkpoints
import Mathlib.Order.MinMax

/-
  The curve through its points.

  Read over the rationals, the weight of a curve is linear
  between neighbouring checkpoints. Since their positions
  increase strictly from zero to one, some neighbours have a
  time in `[0, 1]` between them, and where two pairs do, the
  time is that of the checkpoint they share, so both lines
  give its weight.

  Main declarations:
    * `Curve.neighbours`
    * `Curve.bracket?`
    * `Curve.weightFrom_of_neighbours`
    * `Curve.weightFrom_mono`
    * `Curve.Interpolates`
    * `Curve.interpolates`
-/

------------------------------------------------------------
-- Neighbours
------------------------------------------------------------

namespace Carnatic

namespace Curve

/- The pairs of neighbouring checkpoints, in order. -/
def neighbours
    (points : List (Checkpoint ℚ)) :
    List (Checkpoint ℚ × Checkpoint ℚ) :=
  points.zip points.tail

/- The first neighbours with a time between them. -/
def bracket?
    (points : List (Checkpoint ℚ))
    (time : ℚ) : Option (Checkpoint ℚ × Checkpoint ℚ) :=
  (neighbours points).find? fun (first, second) =>
    first.position ≤ time ∧ time ≤ second.position

section Pairs

variable {points : List (Checkpoint ℚ)}
variable {first second point : Checkpoint ℚ}
variable {rest : List (Checkpoint ℚ)}
variable {time : ℚ}

@[simp]
theorem neighbours_cons_cons :
    neighbours (first :: second :: rest) =
      (first, second) :: neighbours (second :: rest) :=
  rfl

theorem mem_of_mem_neighbours
    (hPair : (first, second) ∈ neighbours points) :
    first ∈ points ∧ second ∈ points := by
  have hMembers := List.of_mem_zip hPair
  exact ⟨hMembers.1, List.mem_of_mem_tail hMembers.2⟩

/- Neighbours of increasing positions are in order. -/
theorem position_lt_of_mem_neighbours
    (hIncreasing :
      points.Pairwise fun first second =>
        first.position < second.position)
    (hPair : (first, second) ∈ neighbours points) :
    first.position < second.position := by
  induction points with
  | nil => cases hPair
  | cons head tail ih =>
      rcases tail with _ | ⟨next, rest⟩
      · cases hPair
      · rw [neighbours_cons_cons] at hPair
        rcases List.mem_cons.mp hPair with hHead | hTail
        · cases hHead
          exact List.rel_of_pairwise_cons hIncreasing
            List.mem_cons_self
        · exact ih (List.Pairwise.of_cons hIncreasing) hTail

/- Of two checkpoints or more, each has a neighbour. -/
theorem exists_neighbour
    (hPoint : point ∈ first :: second :: rest) :
    ∃ pair ∈ neighbours (first :: second :: rest),
      pair.1 = point ∨ pair.2 = point := by
  induction rest generalizing first second with
  | nil =>
      refine ⟨(first, second), List.mem_cons_self, ?_⟩
      simpa [eq_comm] using hPoint
  | cons third rest ih =>
      rcases List.mem_cons.mp hPoint with rfl | hTail
      · exact ⟨(point, second), List.mem_cons_self, .inl rfl⟩
      · rcases ih hTail with ⟨pair, hPair, hSame⟩
        exact ⟨pair, List.mem_cons_of_mem _ hPair, hSame⟩

------------------------------------------------------------
-- Lines Between Neighbours
------------------------------------------------------------

theorem between_first_position :
    between first second first.position = first.weight := by
  unfold between
  change first.weight +
    (first.position - first.position) /
      (second.position - first.position) *
      (second.weight - first.weight) = first.weight
  rw [sub_self, zero_div, zero_mul, add_zero]

theorem between_second_position
    (hLess : first.position < second.position) :
    between first second second.position =
      second.weight := by
  have hDivisor : second.position - first.position ≠ 0 :=
    (sub_pos.mpr hLess).ne'
  unfold between
  change first.weight +
    (second.position - first.position) /
      (second.position - first.position) *
      (second.weight - first.weight) = second.weight
  rw [div_self hDivisor, one_mul, add_sub_cancel]

/- A line towards no smaller weight does not fall. -/
theorem between_mono
    {later : ℚ}
    (hWeights : first.weight ≤ second.weight)
    (hPositions : first.position ≤ second.position)
    (hLater : time ≤ later) :
    between first second time ≤ between first second later := by
  have hShares :
      (time - first.position) /
          (second.position - first.position) ≤
        (later - first.position) /
          (second.position - first.position) :=
    div_le_div_of_nonneg_right (by linarith) (by linarith)
  have hRise :
      (time - first.position) /
            (second.position - first.position) *
          (second.weight - first.weight) ≤
        (later - first.position) /
            (second.position - first.position) *
          (second.weight - first.weight) :=
    mul_le_mul_of_nonneg_right hShares (by linarith)
  exact add_le_add (le_refl first.weight) hRise

------------------------------------------------------------
-- The Search For Neighbours
------------------------------------------------------------

/- What is found are neighbours with the time between them,
and the weight is on the line through them. -/
theorem weightFrom_of_bracket?
    (hFound : bracket? points time = some (first, second)) :
    weightFrom points time = between first second time := by
  unfold bracket? at hFound
  fun_induction weightFrom points time with
  | case1 => cases hFound
  | case2 => cases hFound
  | case3 head next rest time hInside =>
      rw [neighbours_cons_cons,
        List.find?_cons_of_pos (by simpa using hInside)]
        at hFound
      cases hFound
      rfl
  | case4 head next rest time hOutside ih =>
      rw [neighbours_cons_cons,
        List.find?_cons_of_neg (by simpa using hOutside)]
        at hFound
      exact ih hFound

theorem mem_neighbours_of_bracket?
    (hFound : bracket? points time = some (first, second)) :
    (first, second) ∈ neighbours points ∧
      first.position ≤ time ∧ time ≤ second.position := by
  refine ⟨List.mem_of_find?_eq_some hFound, ?_⟩
  simpa using List.find?_some hFound

/- A time from the first position to the last is between some
neighbours. -/
theorem exists_bracket?
    (hAfter : first.position ≤ time)
    (hBefore :
      ∀ last ∈ (first :: second :: rest).getLast?,
        time ≤ last.position) :
    ∃ pair,
      bracket? (first :: second :: rest) time =
        some pair := by
  unfold bracket?
  induction rest generalizing first second with
  | nil =>
      have hInside :
          first.position ≤ time ∧ time ≤ second.position :=
        ⟨hAfter, hBefore second rfl⟩
      refine ⟨(first, second), ?_⟩
      rw [neighbours_cons_cons,
        List.find?_cons_of_pos (by simpa using hInside)]
  | cons third rest ih =>
      by_cases hInside : time ≤ second.position
      · have hBoth :
            first.position ≤ time ∧ time ≤ second.position :=
          ⟨hAfter, hInside⟩
        refine ⟨(first, second), ?_⟩
        rw [neighbours_cons_cons,
          List.find?_cons_of_pos (by simpa using hBoth)]
      · rw [neighbours_cons_cons,
          List.find?_cons_of_neg (by simp [hInside])]
        apply ih (le_of_lt (not_le.mp hInside))
        simpa using hBefore

/- Any neighbours with the time between them give the weight:
where there are two pairs of them, their lines meet. -/
theorem weightFrom_of_neighbours
    (hIncreasing :
      points.Pairwise fun first second =>
        first.position < second.position)
    (hPair : (first, second) ∈ neighbours points)
    (hAfter : first.position ≤ time)
    (hBefore : time ≤ second.position) :
    weightFrom points time = between first second time := by
  fun_induction weightFrom points time with
  | case1 => cases hPair
  | case2 => cases hPair
  | case3 head next rest time hInside =>
      rw [neighbours_cons_cons] at hPair
      rcases List.mem_cons.mp hPair with hHead | hTail
      · cases hHead
        rfl
      · -- Only the point between the pairs is in both.
        have hFirst := (mem_of_mem_neighbours hTail).1
        have hRest := List.Pairwise.of_cons hIncreasing
        have hSame : first = next := by
          rcases List.mem_cons.mp hFirst with hNext | hLater
          · exact hNext
          · have hBeyond :=
              List.rel_of_pairwise_cons hRest hLater
            linarith [hInside.2]
        subst hSame
        have hTime : time = first.position :=
          le_antisymm hInside.2 hAfter
        have hLess : head.position < first.position :=
          List.rel_of_pairwise_cons hIncreasing
            List.mem_cons_self
        rw [hTime, between_first_position,
          between_second_position hLess]
  | case4 head next rest time hOutside ih =>
      rw [neighbours_cons_cons] at hPair
      rcases List.mem_cons.mp hPair with hHead | hTail
      · cases hHead
        exact absurd ⟨hAfter, hBefore⟩ hOutside
      · exact ih (List.Pairwise.of_cons hIncreasing) hTail
          hAfter hBefore

/- Weights that never decrease from point to point do not
decrease in between. -/
theorem weightFrom_mono
    {later : ℚ}
    (hWeights :
      (first :: rest).Pairwise fun low high =>
        low.weight ≤ high.weight)
    (hAfter : first.position ≤ time)
    (hLater : time ≤ later) :
    weightFrom (first :: rest) time ≤
      weightFrom (first :: rest) later := by
  induction rest generalizing first with
  | nil => exact le_refl _
  | cons second rest ih =>
      have hRest := List.Pairwise.of_cons hWeights
      have hStep :=
        List.rel_of_pairwise_cons hWeights List.mem_cons_self
      unfold weightFrom
      by_cases hTime : time ≤ second.position
      · rw [if_pos ⟨hAfter, hTime⟩]
        by_cases hLaterTime : later ≤ second.position
        · rw [if_pos ⟨hAfter.trans hLater, hLaterTime⟩]
          exact between_mono hStep (hAfter.trans hTime) hLater
        · rw [if_neg fun hBoth => hLaterTime hBoth.2]
          -- The second point stands between the two weights.
          have hBelow := (between_mem_uIcc hAfter hTime).2
          have hAbove :
              weightFrom (second :: rest) later ∈
                Set.Ici second.weight := by
            apply weightFrom_mem (List.cons_ne_nil _ _)
            intro point hPoint
            rcases List.mem_cons.mp hPoint with rfl | hTail
            · exact Set.self_mem_Ici
            · exact List.rel_of_pairwise_cons hRest hTail
          rw [max_eq_right hStep] at hBelow
          exact hBelow.trans hAbove
      · have hLaterTime : ¬later ≤ second.position :=
          fun hBound => hTime (hLater.trans hBound)
        rw [if_neg fun hBoth => hTime hBoth.2,
          if_neg fun hBoth => hLaterTime hBoth.2]
        exact ih hRest (le_of_lt (not_le.mp hTime))

end Pairs

------------------------------------------------------------
-- Curves From Zero To One
------------------------------------------------------------

/- The time in `[0, 1]` that is nearest to some time. -/
def clamped (time : ℚ) : ℚ :=
  max 0 (min time 1)

theorem clamped_nonneg (time : ℚ) :
    0 ≤ clamped time :=
  le_max_left _ _

theorem clamped_le_one (time : ℚ) :
    clamped time ≤ 1 :=
  max_le zero_le_one (min_le_right _ _)

theorem clamped_mono :
    Monotone clamped := by
  intro time later hLater
  exact max_le_max (le_refl 0) (min_le_min hLater (le_refl 1))

theorem clamped_of_mem
    {time : ℚ}
    (hLow : 0 ≤ time)
    (hHigh : time ≤ 1) :
    clamped time = time := by
  unfold clamped
  rw [min_eq_left hHigh, max_eq_right hLow]

theorem weight_eq (curve : Curve ℚ) (time : ℚ) :
    curve.weight time =
      weightFrom curve.checkpoints (clamped time) := by
  unfold weight
  rw [Scalar.clampUnit_eq]
  rfl

/- The start and the end are two checkpoints. -/
theorem Spans.exists_two
    {checkpoints : List (Checkpoint ℚ)}
    (hSpans : Spans checkpoints) :
    ∃ first second rest,
      checkpoints = first :: second :: rest ∧
        first.position = 0 ∧
        ∀ last ∈ checkpoints.getLast?, last.position = 1 := by
  rcases hSpans.start with ⟨first, hFirst, hStart⟩
  rcases hSpans.finish with ⟨last, hLast, hFinish⟩
  have hZero : first.position = 0 :=
    Scalar.equal_iff_eq.mp hStart
  have hOne : last.position = 1 :=
    Scalar.equal_iff_eq.mp hFinish
  rcases checkpoints with _ | ⟨head, _ | ⟨second, rest⟩⟩
  · cases hFirst
  · cases hFirst
    cases hLast
    have hSame : first.position = 1 := hOne
    rw [hZero] at hSame
    exact absurd hSame zero_ne_one
  · cases hFirst
    refine ⟨first, second, rest, rfl, hZero, ?_⟩
    intro other hOther
    rw [Option.mem_unique hOther hLast]
    exact hOne

section Curves

variable {curve : Curve ℚ}
variable {first second point : Checkpoint ℚ}
variable {time : ℚ}

/- The search always finds neighbours. -/
theorem Spans.exists_bracket?
    (hSpans : Spans curve.checkpoints)
    (time : ℚ) :
    ∃ first second,
      bracket? curve.checkpoints (clamped time) =
        some (first, second) := by
  rcases hSpans.exists_two with
    ⟨head, next, rest, hPoints, hZero, hOne⟩
  rw [hPoints] at hOne ⊢
  have hAfter : head.position ≤ clamped time := by
    rw [hZero]
    exact clamped_nonneg time
  have hBefore :
      ∀ last ∈ (head :: next :: rest).getLast?,
        clamped time ≤ last.position := by
    intro last hLast
    rw [hOne last hLast]
    exact clamped_le_one time
  rcases Curve.exists_bracket? hAfter hBefore with
    ⟨⟨first, second⟩, hFound⟩
  exact ⟨first, second, hFound⟩

/- Checkpoints stand at times that clamping keeps. -/
theorem Spans.clamped_position
    (hSpans : Spans curve.checkpoints)
    (hPoint : point ∈ curve.checkpoints) :
    clamped point.position = point.position := by
  have hInside :=
    Scalar.inUnit_iff.mp (hSpans.inRange point hPoint).1
  exact clamped_of_mem hInside.1 hInside.2

/- So do all times between neighbours. -/
theorem Spans.clamped_of_neighbours
    (hSpans : Spans curve.checkpoints)
    (hPair : (first, second) ∈ neighbours curve.checkpoints)
    (hAfter : first.position ≤ time)
    (hBefore : time ≤ second.position) :
    clamped time = time := by
  rcases mem_of_mem_neighbours hPair with ⟨hFirst, hSecond⟩
  have hLow :=
    Scalar.inUnit_iff.mp (hSpans.inRange first hFirst).1
  have hHigh :=
    Scalar.inUnit_iff.mp (hSpans.inRange second hSecond).1
  exact clamped_of_mem (hLow.1.trans hAfter)
    (hBefore.trans hHigh.2)

/- A curve passes through its checkpoints. -/
theorem Spans.weight_position
    (hSpans : Spans curve.checkpoints)
    (hPoint : point ∈ curve.checkpoints) :
    curve.weight point.position = point.weight := by
  have hIncreasing := hSpans.increasing
  rcases hSpans.exists_two with
    ⟨head, next, rest, hPoints, _, _⟩
  rw [weight_eq, hSpans.clamped_position hPoint]
  rw [hPoints] at hPoint hIncreasing ⊢
  rcases exists_neighbour hPoint with
    ⟨⟨first, second⟩, hPair, hSame | hSame⟩
  · have hSame : first = point := hSame
    subst hSame
    have hLess :=
      position_lt_of_mem_neighbours hIncreasing hPair
    rw [weightFrom_of_neighbours hIncreasing hPair
      (le_refl _) hLess.le, between_first_position]
  · have hSame : second = point := hSame
    subst hSame
    have hLess :=
      position_lt_of_mem_neighbours hIncreasing hPair
    rw [weightFrom_of_neighbours hIncreasing hPair hLess.le
      (le_refl _), between_second_position hLess]

/- Weights that never decrease from checkpoint to checkpoint
do not decrease over time. -/
theorem Spans.weight_mono
    (hSpans : Spans curve.checkpoints)
    (hWeights :
      curve.checkpoints.Pairwise fun first second =>
        first.weight ≤ second.weight) :
    Monotone curve.weight := by
  intro time later hLater
  rcases hSpans.exists_two with
    ⟨head, next, rest, hPoints, hZero, _⟩
  rw [weight_eq, weight_eq]
  rw [hPoints] at hWeights ⊢
  apply weightFrom_mono hWeights
  · rw [hZero]
    exact clamped_nonneg time
  · exact clamped_mono hLater

end Curves

------------------------------------------------------------
-- Interpolation
------------------------------------------------------------

/-
  The weights of a curve are those of the straight lines
  through neighbouring checkpoints. The search for neighbours
  never fails, it does not matter which of them it finds, and
  the curve has no other weights than its checkpoints bound.
-/
structure Interpolates (curve : Curve ℚ) : Prop where
  weight_clamped :
    ∀ time, curve.weight time = curve.weight (clamped time)
  finds :
    ∀ time,
      ∃ first second,
        bracket? curve.checkpoints (clamped time) =
            some (first, second) ∧
          first.position ≤ clamped time ∧
          clamped time ≤ second.position ∧
          0 < second.position - first.position ∧
          curve.weight time =
            between first second (clamped time)
  agrees :
    ∀ time first second,
      (first, second) ∈ neighbours curve.checkpoints →
        first.position ≤ clamped time →
          clamped time ≤ second.position →
            curve.weight time =
              between first second (clamped time)
  weight_position :
    ∀ point ∈ curve.checkpoints,
      curve.weight point.position = point.weight
  weight_between :
    ∀ time first second,
      (first, second) ∈ neighbours curve.checkpoints →
        first.position ≤ time →
          time ≤ second.position →
            min first.weight second.weight ≤
                curve.weight time ∧
              curve.weight time ≤
                max first.weight second.weight
  weight_unit :
    ∀ time, 0 ≤ curve.weight time ∧ curve.weight time ≤ 1
  weight_mono :
    (curve.checkpoints.Pairwise fun first second =>
        first.weight ≤ second.weight) →
      Monotone curve.weight

/- Every curve interpolates its checkpoints. -/
theorem interpolates (curve : Curve ℚ) :
    Interpolates curve := by
  have hSpans := curve.spans
  have hIncreasing := hSpans.increasing
  have hAgrees :
      ∀ time first second,
        (first, second) ∈ neighbours curve.checkpoints →
          first.position ≤ clamped time →
            clamped time ≤ second.position →
              curve.weight time =
                between first second (clamped time) := by
    intro time first second hPair hAfter hBefore
    rw [weight_eq]
    exact weightFrom_of_neighbours hIncreasing hPair hAfter
      hBefore
  constructor
  case weight_clamped =>
    intro time
    rw [weight_eq, weight_eq, clamped_of_mem
      (clamped_nonneg time) (clamped_le_one time)]
  case finds =>
    intro time
    rcases hSpans.exists_bracket? time with
      ⟨first, second, hFound⟩
    rcases mem_neighbours_of_bracket? hFound with
      ⟨hPair, hAfter, hBefore⟩
    have hLess :=
      position_lt_of_mem_neighbours hIncreasing hPair
    refine ⟨first, second, hFound, hAfter, hBefore,
      sub_pos.mpr hLess, ?_⟩
    rw [weight_eq]
    exact weightFrom_of_bracket? hFound
  case agrees => exact hAgrees
  case weight_position =>
    intro point hPoint
    exact hSpans.weight_position hPoint
  case weight_between =>
    intro time first second hPair hAfter hBefore
    have hTime :=
      hSpans.clamped_of_neighbours hPair hAfter hBefore
    rw [hAgrees time first second hPair
      (hTime.symm ▸ hAfter) (hTime.symm ▸ hBefore), hTime]
    exact between_mem_uIcc hAfter hBefore
  case weight_unit => exact curve.weight_mem_unit
  case weight_mono => exact hSpans.weight_mono

/- A curve that rises above the straight line. -/
def bent : Curve ℚ where
  name := "~"
  checkpoints := [⟨0, 0⟩, ⟨1 / 2, 3 / 4⟩, ⟨1, 1⟩]
  leadAcross := by decide +kernel

example : bent.weight (1 / 4) = 3 / 8 := by
  decide +kernel

end Curve

end Carnatic
