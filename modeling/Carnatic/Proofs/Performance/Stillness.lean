import Carnatic.Proofs.Performance.Chronicle
import Carnatic.Proofs.Pitch.Compass
import Carnatic.Proofs.Scalar.Vanishing

/-
  Segments that stay still.

  The flat curve has no weight, and floats compute none: what
  is left of the way to the target is a zero or not a number,
  and the wheel rests either way. A still segment can be cut
  in two. The second part finds its note sounding, and the
  ticks of both parts are those of the whole.

  Main declarations:
    * `Performance.wheelAt_of_flat`
    * `Performance.idle` and `Performance.follow_eq_idle`
    * `Segment.upTo` and `Segment.beyond`
    * `Performance.segment_cut`
    * `Performance.ofSegments_cut`
-/

------------------------------------------------------------
-- Flat Curves
------------------------------------------------------------

namespace Carnatic

/- The flat curve has no weight at any time. -/
theorem Registry.vanishes_weight_flat (time : Float) :
    Vanishes ((flat : Curve Float).weight time) := by
  let first : Checkpoint Float :=
    ⟨Float.ofInt 0, Float.ofInt 0⟩
  let last : Checkpoint Float :=
    ⟨Float.ofInt 1, Float.ofInt 0⟩
  change Vanishes
    (Curve.weightFrom [first, last] (Scalar.clampUnit time))
  rw [Curve.weightFrom]
  split
  · have hRise :
        Vanishes (Float.ofInt 0 - Float.ofInt 0) :=
      .zero .positive
    exact (hRise.mul _).zero_add
  · exact .ofInt_zero

/- The wheel rests where what is added to an offset vanishes.
There are 36 offsets and three floats that vanish. -/
theorem bendValue_of_vanishes
    {x : Float}
    {offset : Int}
    (hVanishes : Vanishes x)
    (hOffset : InCompass offset) :
    bendValue
        (Float.ofInt offset + x - Float.ofInt offset) = 0 := by
  have hAll :
      ∀ index < 36,
        ∀ x ∈ [Float.ofModel (.pack (.zero .positive)),
            .ofModel (.pack (.zero .negative)),
            .ofModel (.pack .notANumber)],
          bendValue
              (Float.ofInt ((index : Nat) - 12) + x -
                Float.ofInt ((index : Nat) - 12)) = 0 := by
    decide +kernel
  rcases hOffset with ⟨hLow, hHigh⟩
  have hIndex : (offset + 12).toNat < 36 := by
    omega
  have hSame : ((offset + 12).toNat : Int) - 12 = offset := by
    omega
  have hRow := hAll _ hIndex
  rw [hSame] at hRow
  cases hVanishes with
  | zero sign =>
      cases sign with
      | positive => exact hRow _ (by simp)
      | negative => exact hRow _ (by simp)
  | notANumber => exact hRow _ (by simp)

namespace Performance

/- On a flat curve the wheel rests at every tick. -/
theorem wheelAt_of_flat
    {settings : Settings Float}
    {segment : Segment Float}
    (hCurve : segment.curve = Registry.flat)
    (hStart : InCompass segment.start)
    (tick : Nat) :
    wheelAt settings segment tick = 0 := by
  have hWeight := Registry.vanishes_weight_flat
    (Scalar.power
      (Scalar.ofInt tick /
        Scalar.ofInt (ticksOf settings segment))
      settings.easeExponent)
  rw [wheelAt, hCurve]
  exact bendValue_of_vanishes (hWeight.mul_of_left _) hStart

------------------------------------------------------------
-- Ticks At Rest
------------------------------------------------------------

variable {R : Type}

/- Some ticks with the wheel at rest. -/
def idle
    (performance : Performance R) : Nat → Performance R
| 0 => performance
| count + 1 =>
    ((performance.idle count).emit (.pitchBend 0)).advance 1

theorem idle_add
    (performance : Performance R)
    (first second : Nat) :
    performance.idle (first + second) =
      (performance.idle first).idle second := by
  induction second with
  | zero => rfl
  | succ second ih =>
      rw [← Nat.add_assoc, idle, ih, idle]

@[simp]
theorem settings_idle
    (performance : Performance R)
    (count : Nat) :
    (performance.idle count).settings =
      performance.settings := by
  induction count with
  | zero => rfl
  | succ count ih => exact ih

@[simp]
theorem sounding_idle
    (performance : Performance R)
    (count : Nat) :
    (performance.idle count).sounding =
      performance.sounding := by
  induction count with
  | zero => rfl
  | succ count ih => exact ih

end Performance

------------------------------------------------------------
-- Cutting Segments
------------------------------------------------------------

variable {R : Type} [Scalar R]

namespace Segment

/- The first units of a segment, which stay at its start. -/
def upTo
    (segment : Segment R)
    (units : Nat) : Segment R :=
  { segment with
    target := segment.start
    duration := units }

/- What is left of a segment behind its first units. -/
def beyond
    (segment : Segment R)
    (units : Nat) : Segment R :=
  { segment with duration := segment.duration - units }

end Segment

namespace Performance

/- The wheel rests as long as a segment lasts. -/
def IsStill
    (settings : Settings R)
    (segment : Segment R) : Prop :=
  ∀ tick, wheelAt settings segment tick = 0

theorem follow_eq_idle
    {performance : Performance R}
    {segment : Segment R}
    (hStill : IsStill performance.settings segment)
    (count : Nat) :
    performance.follow segment count =
      performance.idle count := by
  induction count with
  | zero => rfl
  | succ count ih =>
      have hWheel :
          bendValue
              (bendAt performance.settings segment
                (ticksOf performance.settings segment)
                count) = 0 :=
        hStill count
      rw [follow, bend, hWheel, ih, idle]

/- The parts of a segment last as long as the whole, unless it
is longer than can be counted. -/
theorem ticksOf_upTo_add_beyond
    {settings : Settings R}
    {segment : Segment R}
    {units : Nat}
    (hUnits : units ≤ segment.duration)
    (hFits :
      segment.duration * settings.ticksPerUnit.toNat <
        UInt32.size) :
    ticksOf settings (segment.upTo units) +
        ticksOf settings (segment.beyond units) =
      ticksOf settings segment := by
  have hSplit :
      units * settings.ticksPerUnit.toNat +
          (segment.duration - units) *
            settings.ticksPerUnit.toNat =
        segment.duration * settings.ticksPerUnit.toNat := by
    rw [← Nat.add_mul, Nat.add_sub_cancel' hUnits]
  unfold ticksOf Segment.upTo Segment.beyond
  simp only
  omega

section Cut

variable {segment : Segment R}
variable {units : Nat}

/- A still segment is played as its two parts are, if they are
still themselves. -/
theorem segment_cut
    {performance reached : Performance R}
    (hWhole : IsStill performance.settings segment)
    (hUpTo : IsStill performance.settings (segment.upTo units))
    (hBeyond :
      IsStill performance.settings (segment.beyond units))
    (hUnits : units ≤ segment.duration)
    (hFits :
      segment.duration *
          performance.settings.ticksPerUnit.toNat <
        UInt32.size)
    (hSegment : performance.segment segment = .ok reached) :
    ∃ middle,
      performance.segment (segment.upTo units) =
          .ok middle ∧
        middle.segment (segment.beyond units) =
          .ok reached := by
  rcases segment_eq_ok_iff.mp hSegment with
    ⟨note, hNote, rfl⟩
  let played := performance.play note
  let middle := played.idle
    (ticksOf performance.settings (segment.upTo units))
  have hPlayed : played.settings = performance.settings :=
    settings_play performance note
  have hMiddle : middle.settings = performance.settings :=
    (settings_idle played _).trans hPlayed
  have hSounds : middle.sounding = some note :=
    (sounding_idle played _).trans
      (sounding_play performance note)
  rw [← hPlayed] at hWhole hUpTo
  rw [← hMiddle] at hBeyond
  refine ⟨middle, ?_, ?_⟩
  · refine segment_eq_ok_iff.mpr ⟨note, hNote, ?_⟩
    exact (follow_eq_idle hUpTo _).symm
  · refine segment_eq_ok_iff.mpr ⟨note, ?_, ?_⟩
    · rw [hMiddle]
      exact hNote
    -- The note sounds already, so only ticks are left.
    · rw [play_of_sounding hSounds, follow_eq_idle hBeyond,
        hMiddle, ← idle_add,
        ticksOf_upTo_add_beyond hUnits hFits]
      exact follow_eq_idle hWhole _

/- A tune sounds the same when one of its segments is cut. -/
theorem ofSegments_cut
    {settings : Settings R}
    {before after : List (Segment R)}
    {events : List Midi.Event}
    (hWhole : IsStill settings segment)
    (hUpTo : IsStill settings (segment.upTo units))
    (hBeyond : IsStill settings (segment.beyond units))
    (hUnits : units ≤ segment.duration)
    (hFits :
      segment.duration * settings.ticksPerUnit.toNat <
        UInt32.size)
    (hTune :
      ofSegments settings (before ++ segment :: after) =
        .ok events) :
    ofSegments settings
        (before ++
          segment.upTo units :: segment.beyond units :: after) =
      .ok events := by
  rcases exists_hasPlayed_of_ofSegments hTune with
    ⟨final, hFinal, _, rfl⟩
  rcases segments_append_eq_ok_iff.mp hFinal with
    ⟨reached, hBefore, hRest⟩
  rcases segments_cons_eq_ok_iff.mp hRest with
    ⟨passed, hSegment, hAfter⟩
  have hSettings : reached.settings = settings :=
    ((hasPlayed_start settings).segments hBefore).settings_eq
  rw [← hSettings] at hWhole hUpTo hBeyond hFits
  rcases segment_cut hWhole hUpTo hBeyond hUnits hFits
      hSegment with
    ⟨middle, hFirst, hSecond⟩
  have hCut :
      (start settings).segments
          (before ++
            segment.upTo units ::
              segment.beyond units :: after) =
        .ok final :=
    segments_append_eq_ok_iff.mpr ⟨reached, hBefore,
      segments_cons_eq_ok_iff.mpr ⟨middle, hFirst,
        segments_cons_eq_ok_iff.mpr
          ⟨passed, hSecond, hAfter⟩⟩⟩
  simp only [ofSegments, hCut]

end Cut

end Performance

end Carnatic
