import Carnatic.Proofs.Curve.Interpolation
import Carnatic.Proofs.Performance.Bend
import Carnatic.Proofs.Performance.Growth
import Carnatic.Proofs.Reading.First
import Carnatic.Proofs.Settings.Validity

/-
  Bends within their interval.

  Read over the rationals, the eased time of a tick lies in
  `[0, 1)`, so the curve is asked for a weight of its own.
  Weights, the scaling by the interval and the wheel keep
  bounds and order: a segment bends from its note towards its
  target and never beyond it, and it turns back only where its
  curve does.

  Main declarations:
    * `Midi.bendsOf`
    * `Performance.bendsOf_segment`
    * `Performance.StaysInInterval`
    * `Performance.staysInInterval_wheels`
    * `Performance.staysInInterval_of_segment`
-/

------------------------------------------------------------
-- Bends Among Events
------------------------------------------------------------

namespace Carnatic

namespace Midi

/- The wheel's value in a message that bends. -/
def Message.bend? : Message → Option Int
| .pitchBend value => some value
| _ => none

/- The wheel's values in some events, in order. -/
def bendsOf (events : List Event) : List Int :=
  events.filterMap fun event => event.message.bend?

@[simp]
theorem bendsOf_append (first second : List Event) :
    bendsOf (first ++ second) =
      bendsOf first ++ bendsOf second :=
  List.filterMap_append

end Midi

namespace Performance

section Events

variable {R : Type}

theorem bendsOf_emit
    (performance : Performance R)
    (message : Midi.Message) :
    Midi.bendsOf (performance.emit message).events.toList =
      Midi.bendsOf performance.events.toList ++
        message.bend?.toList := by
  rw [events_emit, Midi.bendsOf_append]
  cases hBend : message.bend? with
  | none => simp [Midi.bendsOf, hBend]
  | some value => simp [Midi.bendsOf, hBend]

theorem bendsOf_foldl_emit
    (performance : Performance R)
    (messages : List Midi.Message) :
    Midi.bendsOf
        (messages.foldl emit performance).events.toList =
      Midi.bendsOf performance.events.toList ++
        messages.filterMap Midi.Message.bend? := by
  induction messages generalizing performance with
  | nil => simp
  | cons message rest ih =>
      rw [List.foldl_cons, ih, bendsOf_emit,
        List.append_assoc]
      cases hBend : message.bend? <;> simp [hBend]

/- A change of notes bends nothing. -/
theorem bendsOf_play
    (performance : Performance R)
    (note : UInt8) :
    Midi.bendsOf (performance.play note).events.toList =
      Midi.bendsOf performance.events.toList := by
  have hChange :
      (changeTo performance.settings.velocity note
          performance.sounding).filterMap
        Midi.Message.bend? = [] := by
    cases performance.sounding with
    | none => rfl
    | some old =>
        by_cases hSame : old = note
        · simp [changeTo, hSame]
        · simp [changeTo, hSame, Midi.Message.bend?]
  rw [play_eq]
  refine (bendsOf_foldl_emit performance _).trans ?_
  rw [hChange, List.append_nil]

variable [Scalar R]

/- The wheel's values at the ticks of a segment, in order. -/
def wheels
    (settings : Settings R)
    (segment : Segment R) : List Int :=
  (List.range (ticksOf settings segment)).map
    (wheelAt settings segment)

theorem bendsOf_follow
    (performance : Performance R)
    (segment : Segment R)
    (count : Nat) :
    Midi.bendsOf
        (performance.follow segment count).events.toList =
      Midi.bendsOf performance.events.toList ++
        (List.range count).map
          (wheelAt performance.settings segment) := by
  induction count with
  | zero => simp [follow]
  | succ count ih =>
      refine (bendsOf_emit _ _).trans ?_
      rw [ih, List.range_succ, List.map_append,
        List.append_assoc]
      rfl

/- A segment bends once a tick, and nothing else bends. -/
theorem bendsOf_segment
    {performance reached : Performance R}
    {segment : Segment R}
    (hSegment : performance.segment segment = .ok reached) :
    Midi.bendsOf reached.events.toList =
      Midi.bendsOf performance.events.toList ++
        wheels performance.settings segment := by
  rcases segment_eq_ok_iff.mp hSegment with ⟨note, _, rfl⟩
  rw [bendsOf_follow, bendsOf_play, settings_play]
  rfl

end Events

------------------------------------------------------------
-- Eased Time
------------------------------------------------------------

section Time

variable {exponent : Int}
variable {tick later ticks : Nat}

theorem easedTime_eq (exponent : Int) (tick ticks : Nat) :
    easedTime exponent tick ticks =
      ((tick : ℚ) / ticks) ^ exponent :=
  Scalar.power_eq_zpow _ _

theorem share_mem
    (hTick : tick < ticks) :
    (tick : ℚ) / ticks ∈ Set.Ico (0 : ℚ) 1 := by
  have hTicks : (0 : ℚ) < ticks := by
    exact_mod_cast Nat.zero_lt_of_lt hTick
  constructor
  · positivity
  · rw [div_lt_one hTicks]
    exact_mod_cast hTick

/- Every tick of a segment comes at a time that the curve
has, and none at its end. -/
theorem easedTime_mem
    (hExponent : 1 ≤ exponent)
    (hTick : tick < ticks) :
    (easedTime exponent tick ticks : ℚ) ∈
      Set.Ico (0 : ℚ) 1 := by
  rcases Int.eq_ofNat_of_zero_le
    (zero_le_one.trans hExponent) with ⟨power, rfl⟩
  rcases share_mem hTick with ⟨hLow, hHigh⟩
  rw [easedTime_eq, zpow_natCast]
  exact ⟨pow_nonneg hLow power,
    pow_lt_one₀ hLow hHigh (by omega)⟩

/- Time does not run backwards. -/
theorem easedTime_mono
    (hExponent : 1 ≤ exponent)
    (hLater : tick ≤ later) :
    (easedTime exponent tick ticks : ℚ) ≤
      easedTime exponent later ticks := by
  rcases Int.eq_ofNat_of_zero_le
    (zero_le_one.trans hExponent) with ⟨power, rfl⟩
  have hShare :
      (tick : ℚ) / ticks ≤ (later : ℚ) / ticks := by
    gcongr
  rw [easedTime_eq, easedTime_eq, zpow_natCast,
    zpow_natCast]
  exact pow_le_pow_left₀ (by positivity) hShare power

end Time

------------------------------------------------------------
-- Bends Of A Segment
------------------------------------------------------------

variable {settings : Settings ℚ}
variable {segment : Segment ℚ}

/- The semitones from the start of a segment to its
target. -/
def intervalOf (segment : Segment ℚ) : ℚ :=
  Scalar.ofInt (segment.target - segment.start)

theorem intervalOf_nonneg
    (hUp : segment.start ≤ segment.target) :
    0 ≤ intervalOf segment := by
  rw [intervalOf, Scalar.ofInt_rat]
  exact_mod_cast sub_nonneg.mpr hUp

theorem intervalOf_nonpos
    (hDown : segment.target ≤ segment.start) :
    intervalOf segment ≤ 0 := by
  rw [intervalOf, Scalar.ofInt_rat]
  exact_mod_cast sub_nonpos.mpr hDown

/- The weight of a segment's curve at a tick. -/
def weightAt
    (settings : Settings ℚ)
    (segment : Segment ℚ)
    (tick : Nat) : ℚ :=
  segment.curve.weight
    (easedTime settings.easeExponent tick
      (ticksOf settings segment))

/- The wheel is asked for the weight's share of the whole
interval. -/
theorem wheelAt_eq
    (settings : Settings ℚ)
    (segment : Segment ℚ)
    (tick : Nat) :
    wheelAt settings segment tick =
      bendValue
        (weightAt settings segment tick *
          intervalOf segment) := by
  have hSample := Curve.sample_sub_start segment.curve
    (easedTime settings.easeExponent tick
      (ticksOf settings segment))
    segment.start segment.target
  have hInterval :
      intervalOf segment = segment.target - segment.start :=
    Int.cast_sub _ _
  rw [hInterval]
  exact congrArg bendValue hSample

/-
  Values that the wheel takes while a segment lasts. There is
  one for every tick, at a time in `[0, 1)`. All lie between
  rest and the bend of the whole interval; equal notes leave
  the wheel at rest. Weights that never decrease give values
  that never turn back.
-/
structure StaysInInterval
    (settings : Settings ℚ)
    (segment : Segment ℚ)
    (values : List Int) : Prop where
  length_eq : values.length = ticksOf settings segment
  time_mem :
    ∀ tick < ticksOf settings segment,
      (easedTime settings.easeExponent tick
        (ticksOf settings segment) : ℚ) ∈ Set.Ico (0 : ℚ) 1
  mem_interval :
    ∀ value ∈ values,
      value ∈ Set.uIcc 0 (bendValue (intervalOf segment))
  level :
    segment.start = segment.target →
      ∀ value ∈ values, value = 0
  upward :
    segment.start ≤ segment.target →
      ∀ value ∈ values,
        0 ≤ value ∧ value ≤ bendValue (intervalOf segment)
  downward :
    segment.target ≤ segment.start →
      ∀ value ∈ values,
        bendValue (intervalOf segment) ≤ value ∧ value ≤ 0
  rising :
    (segment.curve.checkpoints.Pairwise
        fun first second => first.weight ≤ second.weight) →
      segment.start ≤ segment.target →
        values.Pairwise (· ≤ ·)
  falling :
    (segment.curve.checkpoints.Pairwise
        fun first second => first.weight ≤ second.weight) →
      segment.target ≤ segment.start →
        values.Pairwise (· ≥ ·)

/- Upwards, the wheel lies between rest and the bend of the
whole interval. -/
theorem wheelAt_up
    (hUp : segment.start ≤ segment.target)
    (tick : Nat) :
    0 ≤ wheelAt settings segment tick ∧
      wheelAt settings segment tick ≤
        bendValue (intervalOf segment) := by
  have hInterval := intervalOf_nonneg hUp
  rcases segment.curve.weight_mem_unit
    (easedTime settings.easeExponent tick
      (ticksOf settings segment)) with ⟨hLow, hHigh⟩
  rw [wheelAt_eq]
  constructor
  · rw [← bendValue_zero]
    exact bendValue_mono (mul_nonneg hLow hInterval)
  · exact bendValue_mono
      (mul_le_of_le_one_left hInterval hHigh)

/- Downwards, it lies on the other side of rest. -/
theorem wheelAt_down
    (hDown : segment.target ≤ segment.start)
    (tick : Nat) :
    bendValue (intervalOf segment) ≤
        wheelAt settings segment tick ∧
      wheelAt settings segment tick ≤ 0 := by
  have hInterval := intervalOf_nonpos hDown
  rcases segment.curve.weight_mem_unit
    (easedTime settings.easeExponent tick
      (ticksOf settings segment)) with ⟨hLow, hHigh⟩
  rw [wheelAt_eq]
  constructor
  · exact bendValue_mono
      (le_mul_of_le_one_left hInterval hHigh)
  · rw [← bendValue_zero]
    exact bendValue_mono
      (mul_nonpos_of_nonneg_of_nonpos hLow hInterval)

/- A relation between the values at earlier and later ticks
holds along the values. -/
theorem pairwise_wheels
    {relation : Int → Int → Prop}
    (hTicks :
      ∀ tick later, tick < later →
        relation (wheelAt settings segment tick)
          (wheelAt settings segment later)) :
    (wheels settings segment).Pairwise relation :=
  List.pairwise_map.mpr
    (List.pairwise_lt_range.imp (hTicks _ _))

/- Over the ticks of a segment, the weights of a curve that
never falls do not decrease. -/
theorem weightAt_mono
    (hExponent : 1 ≤ settings.easeExponent)
    (hWeights :
      segment.curve.checkpoints.Pairwise
        fun first second => first.weight ≤ second.weight) :
    Monotone (weightAt settings segment) := by
  intro tick later hLater
  exact segment.curve.spans.weight_mono hWeights
    (easedTime_mono hExponent hLater)

/- With an exponent of one at least, every curve stays in the
interval. -/
theorem staysInInterval_wheels
    (hExponent : 1 ≤ settings.easeExponent) :
    StaysInInterval settings segment
      (wheels settings segment) := by
  have hUpward :
      segment.start ≤ segment.target →
        ∀ value ∈ wheels settings segment,
          0 ≤ value ∧
            value ≤ bendValue (intervalOf segment) := by
    intro hUp value hValue
    rcases List.mem_map.mp hValue with ⟨tick, _, rfl⟩
    exact wheelAt_up hUp tick
  have hDownward :
      segment.target ≤ segment.start →
        ∀ value ∈ wheels settings segment,
          bendValue (intervalOf segment) ≤ value ∧
            value ≤ 0 := by
    intro hDown value hValue
    rcases List.mem_map.mp hValue with ⟨tick, _, rfl⟩
    exact wheelAt_down hDown tick
  constructor
  case length_eq => simp [wheels]
  case time_mem =>
    intro tick hTick
    exact easedTime_mem hExponent hTick
  case mem_interval =>
    intro value hValue
    rcases le_total segment.start segment.target with
      hUp | hDown
    · exact Set.Icc_subset_uIcc (hUpward hUp value hValue)
    · exact Set.Icc_subset_uIcc'
        (hDownward hDown value hValue)
  case level =>
    intro hLevel value hValue
    exact le_antisymm (hDownward hLevel.ge value hValue).2
      (hUpward hLevel.le value hValue).1
  case upward => exact hUpward
  case downward => exact hDownward
  case rising =>
    intro hWeights hUp
    apply pairwise_wheels
    intro tick later hLater
    rw [wheelAt_eq, wheelAt_eq]
    apply bendValue_mono
    exact mul_le_mul_of_nonneg_right
      (weightAt_mono hExponent hWeights hLater.le)
      (intervalOf_nonneg hUp)
  case falling =>
    intro hWeights hDown
    apply pairwise_wheels
    intro tick later hLater
    rw [wheelAt_eq, wheelAt_eq]
    apply bendValue_mono
    exact mul_le_mul_of_nonpos_right
      (weightAt_mono hExponent hWeights hLater.le)
      (intervalOf_nonpos hDown)

/-
  With valid settings, every segment that plays, whatever has
  been played before, bends within its interval.
-/
theorem staysInInterval_of_segment
    (performance reached : Performance ℚ)
    (segment : Segment ℚ)
    (hValid : performance.settings.violation? = none)
    (hSegment : performance.segment segment = .ok reached) :
    ∃ sent,
      reached.events.toList =
          performance.events.toList ++ sent ∧
        StaysInInterval performance.settings segment
          (Midi.bendsOf sent) := by
  rcases events_prefix_segment hSegment with ⟨sent, hSent⟩
  have hBends := bendsOf_segment hSegment
  rw [← hSent, Midi.bendsOf_append] at hBends
  refine ⟨sent, hSent.symm, ?_⟩
  rw [List.append_cancel_left hBends]
  exact staysInInterval_wheels
    (Settings.violation?_eq_none_iff.mp
      hValid).easeExponent_ge

/- A way down along a curve that rises above the straight
line. -/
def descent : Segment ℚ :=
  ⟨12, 0, 2, Curve.bent, ⟨1, 3⟩⟩

theorem staysInInterval_of_segment_descent :
    ∃ reached sent,
      (start brisk).segment descent = .ok reached ∧
        reached.events.toList =
          (start brisk).events.toList ++ sent ∧
        Midi.bendsOf sent = [0, -768, -3072, -6400] ∧
        StaysInInterval brisk descent (Midi.bendsOf sent) := by
  have hPlayed :
      ((start brisk).segment descent).map
          (fun reached => Midi.bendsOf reached.events.toList) =
        .ok [0, -768, -3072, -6400] := by
    decide +kernel
  rcases exists_eq_ok_of_map_eq_ok hPlayed with
    ⟨reached, hSegment, hBends⟩
  rcases staysInInterval_of_segment (start brisk) reached
      descent (by decide) hSegment with
    ⟨sent, hSent, hStays⟩
  rw [hSent, Midi.bendsOf_append] at hBends
  exact ⟨reached, sent, hSegment, hSent, hBends, hStays⟩

end Performance

end Carnatic
