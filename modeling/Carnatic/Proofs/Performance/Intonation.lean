import Carnatic.Proofs.Curve.Weight
import Carnatic.Proofs.Midi.Receiver
import Carnatic.Proofs.Performance.Bend
import Carnatic.Proofs.Performance.Schedule
import Carnatic.Proofs.Settings.Validity

/-
  The pitch that a receiver sounds.

  Read over the rationals, a tune asks for one pitch at every
  tick: the sample of the segment's curve, seen from the
  shruti. A receiver that has heard the events up to the tick
  sounds one note, and note and wheel together are off by at
  most one step of the wheel.

  Main declarations:
    * `Performance.sounding_replay_passages`
    * `Performance.heardAt_of_ofSegments`
    * `Performance.limitBend_askedPitch`
    * `Performance.heardAt_within_step`
-/

------------------------------------------------------------
-- Ticks Of Passages
------------------------------------------------------------

namespace Carnatic

namespace Performance

open Midi (Receiver)

section Ticks

variable {R : Type} [Scalar R]

/- A passage lies between the ends of the segments before it
and of its own. -/
theorem tick_of_mem_passage
    {settings : Settings R}
    {before : List (Segment R)}
    {segment : Segment R}
    {event : Midi.Timed}
    (hEvent : event ∈ passage settings before segment) :
    lengthOf settings before ≤ event.tick ∧
      event.tick ≤
        lengthOf settings before +
          ticksOf settings segment := by
  unfold passage at hEvent
  rcases List.mem_append.mp hEvent with hChange | hBend
  · rcases List.mem_map.mp hChange with ⟨message, _, rfl⟩
    exact ⟨Nat.le_refl _, Nat.le_add_right _ _⟩
  · rcases List.mem_map.mp hBend with ⟨tick, hTick, rfl⟩
    have hInside := List.mem_range.mp hTick
    simp only
    omega

/- The passages of a tune end where the tune does. -/
theorem tick_le_of_mem_passages
    {settings : Settings R}
    {tune : List (Segment R)}
    {event : Midi.Timed}
    (hEvent : event ∈ passages settings tune) :
    event.tick ≤ lengthOf settings tune := by
  induction tune using List.reverseRecOn with
  | nil => simp [passages] at hEvent
  | append_singleton before segment ih =>
      rw [passages_concat] at hEvent
      rw [lengthOf_append, lengthOf_singleton]
      rcases List.mem_append.mp hEvent with hOld | hNew
      · exact Nat.le_add_right_of_le (ih hOld)
      · exact (tick_of_mem_passage hNew).2

/- What follows some segments does not reach back in front of
their end. -/
theorem filter_passages_append
    {settings : Settings R}
    {before after : List (Segment R)}
    {tick : Nat}
    (hTick : tick < lengthOf settings before) :
    (passages settings (before ++ after)).filter
        (fun event => event.tick ≤ tick) =
      (passages settings before).filter
        (fun event => event.tick ≤ tick) := by
  induction after using List.reverseRecOn with
  | nil => rw [List.append_nil]
  | append_singleton middle segment ih =>
      have hLater :
          (passage settings (before ++ middle)
              segment).filter
            (fun event => event.tick ≤ tick) = [] := by
        apply List.filter_eq_nil_iff.mpr
        intro event hEvent
        have hLow := (tick_of_mem_passage hEvent).1
        rw [lengthOf_append] at hLow
        simp only [decide_eq_true_eq]
        omega
      rw [← List.append_assoc, passages_concat,
        List.filter_append, hLater, List.append_nil, ih]

/- Up to a tick of its own, a passage has its change of notes
and the bends of the ticks so far. -/
theorem filter_passage
    {settings : Settings R}
    {before : List (Segment R)}
    {segment : Segment R}
    {tick : Nat}
    (hTick : tick < ticksOf settings segment) :
    (passage settings before segment).filter
        (fun event =>
          event.tick ≤ lengthOf settings before + tick) =
      ((changeTo settings.velocity
          (noteNumber settings segment)
          (before.getLast?.map (noteNumber settings))).map
        fun message =>
          ⟨lengthOf settings before, settings.channel,
            message⟩) ++
      (List.range (tick + 1)).map fun n =>
        ⟨lengthOf settings before + n, settings.channel,
          .pitchBend (wheelAt settings segment n)⟩ := by
  have hSplit :
      ticksOf settings segment =
        tick + 1 + (ticksOf settings segment - (tick + 1)) := by
    omega
  unfold passage
  simp only
  rw [hSplit, List.range_add, List.map_append,
    List.filter_append, List.filter_append]
  rw [List.filter_eq_self.mpr, List.filter_eq_self.mpr,
    List.filter_eq_nil_iff.mpr, List.append_nil]
  · intro event hEvent
    simp only [List.map_map, List.mem_map] at hEvent
    rcases hEvent with ⟨n, _, rfl⟩
    simp only [Function.comp_apply, decide_eq_true_eq]
    omega
  · intro event hEvent
    rcases List.mem_map.mp hEvent with ⟨n, hn, rfl⟩
    have hInside := List.mem_range.mp hn
    simp only [decide_eq_true_eq]
    omega
  · intro event hEvent
    rcases List.mem_map.mp hEvent with ⟨message, _, rfl⟩
    simp

/- At a tick of a segment, a receiver has heard the opening,
the segments before, and this one up to the tick. -/
theorem filter_schedule
    {settings : Settings R}
    {before after : List (Segment R)}
    {segment : Segment R}
    {tick : Nat}
    (hTick : tick < ticksOf settings segment) :
    (schedule settings (before ++ segment :: after)).filter
        (fun event =>
          event.tick ≤ lengthOf settings before + tick) =
      opening settings ++ passages settings before ++
        (passage settings before segment).filter
          (fun event =>
            event.tick ≤ lengthOf settings before + tick) := by
  have hTune :
      before ++ segment :: after =
        (before ++ [segment]) ++ after := by
    simp
  have hOpening :
      (opening settings).filter
          (fun event =>
            event.tick ≤ lengthOf settings before + tick) =
        opening settings := by
    apply List.filter_eq_self.mpr
    intro event hEvent
    rcases List.mem_map.mp hEvent with ⟨message, _, rfl⟩
    simp
  have hBefore :
      (passages settings before).filter
          (fun event =>
            event.tick ≤ lengthOf settings before + tick) =
        passages settings before := by
    apply List.filter_eq_self.mpr
    intro event hEvent
    have hHigh := tick_le_of_mem_passages hEvent
    simp only [decide_eq_true_eq]
    omega
  have hClosing :
      (closing settings
          (before ++ [segment] ++ after)).filter
          (fun event =>
            event.tick ≤ lengthOf settings before + tick) =
        [] := by
    apply List.filter_eq_nil_iff.mpr
    intro event hEvent
    rcases List.mem_map.mp hEvent with ⟨last, _, rfl⟩
    simp only [lengthOf_append, lengthOf_singleton,
      decide_eq_true_eq]
    omega
  have hInside :
      lengthOf settings before + tick <
        lengthOf settings (before ++ [segment]) := by
    rw [lengthOf_append, lengthOf_singleton]
    omega
  rw [hTune, schedule, List.filter_append,
    List.filter_append, hOpening, hClosing, List.append_nil,
    filter_passages_append hInside, passages_concat,
    List.filter_append, hBefore, List.append_assoc]

------------------------------------------------------------
-- What A Receiver Sounds
------------------------------------------------------------

/- Whatever sounded before, a change of notes leaves the new
note alone. -/
theorem replay_changeTo
    {receiver : Receiver}
    {velocity note : UInt8}
    {last : Option UInt8}
    (hVelocity : velocity ≠ 0)
    (hLast : receiver.sounding = last.toFinset)
    (tick : Nat)
    (channel : UInt8) :
    receiver.replay
        ((changeTo velocity note last).map
          fun message => ⟨tick, channel, message⟩) =
      { receiver with sounding := {note} } := by
  rcases receiver with ⟨sounding, wheel⟩
  simp only at hLast
  subst hLast
  cases last with
  | none =>
      simp [changeTo, Receiver.replay, Receiver.hear,
        hVelocity]
  | some old =>
      by_cases hSame : old = note
      · simp [changeTo, Receiver.replay, hSame]
      · have hErase :
            (insert note {old} : Finset UInt8).erase old =
              {note} := by
          rw [Finset.pair_comm, Finset.erase_insert]
          simpa using hSame
        simp [changeTo, Receiver.replay, Receiver.hear,
          hVelocity, hSame, hErase]

/- After some segments, the note of the last one sounds. -/
theorem sounding_replay_passages
    {settings : Settings R}
    (hVelocity : settings.velocity ≠ 0)
    (tune : List (Segment R)) :
    ((Receiver.silent.replay (opening settings)).replay
        (passages settings tune)).sounding =
      (tune.getLast?.map
        (noteNumber settings)).toFinset := by
  induction tune using List.reverseRecOn with
  | nil => rfl
  | append_singleton before segment ih =>
      rw [passages_concat, Receiver.replay_append, passage,
        Receiver.replay_append,
        Receiver.sounding_replay_bends,
        replay_changeTo hVelocity ih]
      simp

/- At every tick of a segment its note sounds alone, with the
wheel at the value of this tick. -/
theorem heardAt_of_ofSegments
    {settings : Settings R}
    {before after : List (Segment R)}
    {segment : Segment R}
    {events : List Midi.Event}
    {tick : Nat}
    (hVelocity : settings.velocity ≠ 0)
    (hTune :
      ofSegments settings (before ++ segment :: after) =
        .ok events)
    (hTick : tick < ticksOf settings segment) :
    Receiver.heardAt events
        (lengthOf settings before + tick) =
      ⟨{noteNumber settings segment},
        wheelAt settings segment tick⟩ := by
  rcases exists_hasPlayed_of_ofSegments hTune with
    ⟨final, _, hPlayed, rfl⟩
  have hBefore := sounding_replay_passages hVelocity before
  rw [Receiver.heardAt, hPlayed.timed_finish,
    filter_schedule hTick, filter_passage hTick,
    Receiver.replay_append, Receiver.replay_append,
    Receiver.replay_append, replay_changeTo hVelocity hBefore,
    Receiver.replay_bends]

end Ticks

------------------------------------------------------------
-- Pitches
------------------------------------------------------------

/- The pitch that a segment asks for at a tick: the shruti and
the sample of its curve at the eased time. -/
def askedPitch
    (settings : Settings ℚ)
    (segment : Segment ℚ)
    (tick : Nat) : ℚ :=
  settings.shruti.toNat +
    segment.curve.sample
      (((tick : ℚ) / ticksOf settings segment) ^
        settings.easeExponent)
      segment.start segment.target

/- The pitch of a note that the wheel bends. -/
def soundingPitch
    (note : UInt8)
    (wheel : Int) : ℚ :=
  note.toNat + semitonesOf wheel

/- The wheel stands at the bend from the segment's note to the
pitch that is asked for. -/
theorem wheelAt_eq_bendValue
    (settings : Settings ℚ)
    (segment : Segment ℚ)
    (tick : Nat) :
    wheelAt settings segment tick =
      bendValue
        (askedPitch settings segment tick -
          (settings.shruti.toNat + segment.start)) := by
  have hTime :
      (Scalar.power
          (Scalar.ofInt tick /
            Scalar.ofInt (ticksOf settings segment))
          settings.easeExponent : ℚ) =
        ((tick : ℚ) / ticksOf settings segment) ^
          settings.easeExponent :=
    Scalar.power_eq_zpow _ _
  have hBend (pitch : ℚ) :
      settings.shruti.toNat + pitch -
          (settings.shruti.toNat + segment.start) =
        pitch - segment.start := by
    ring
  rw [wheelAt, hTime, askedPitch, hBend]
  rfl

/- On the way to a target within the wheel's reach, no pitch
lies out of its reach. -/
theorem limitBend_askedPitch
    {settings : Settings ℚ}
    {segment : Segment ℚ}
    (hReach : |(segment.target : ℚ) - segment.start| ≤ 12)
    (tick : Nat) :
    limitBend
        (askedPitch settings segment tick -
          (settings.shruti.toNat + segment.start)) =
      askedPitch settings segment tick -
        (settings.shruti.toNat + segment.start) := by
  apply limitBend_of_abs_le
  have hSample := segment.curve.abs_sample_sub_start_le
    (((tick : ℚ) / ticksOf settings segment) ^
      settings.easeExponent)
    segment.start segment.target
  have hBend :
      askedPitch settings segment tick -
          (settings.shruti.toNat + segment.start) =
        segment.curve.sample
            (((tick : ℚ) / ticksOf settings segment) ^
              settings.easeExponent)
            segment.start segment.target -
          segment.start := by
    rw [askedPitch]
    ring
  rw [hBend]
  exact le_trans hSample hReach

/-
  At every tick of every segment of a tune, one note sounds,
  and with the wheel it is within one step of the pitch asked
  for. A bend that the wheel cannot reach is limited to its
  ends; between pitches an octave apart or less there is none.
-/
theorem heardAt_within_step
    (settings : Settings ℚ)
    (before after : List (Segment ℚ))
    (segment : Segment ℚ)
    (events : List Midi.Event)
    (tick : Nat)
    (hValid : settings.violation? = none)
    (hTune :
      ofSegments settings (before ++ segment :: after) =
        .ok events)
    (hTick : tick < ticksOf settings segment) :
    ∃ note wheel,
      Receiver.heardAt events
          (lengthOf settings before + tick) =
        ⟨{note}, wheel⟩ ∧
      |soundingPitch note wheel -
          (settings.shruti.toNat + segment.start +
            limitBend
              (askedPitch settings segment tick -
                (settings.shruti.toNat + segment.start)))| ≤
        12 / 8192 ∧
      (|(segment.target : ℚ) - segment.start| ≤ 12 →
        |soundingPitch note wheel -
            askedPitch settings segment tick| ≤
          12 / 8192) := by
  have hVelocity :=
    (Settings.violation?_eq_none_iff.mp
      hValid).velocity_ne_zero
  have hNumber :
      ((noteNumber settings segment).toNat : ℚ) =
        settings.shruti.toNat + segment.start := by
    exact_mod_cast toNat_noteNumber_of_ofSegments hTune
  have hWheel := abs_semitonesOf_bendValue_sub_le
    (askedPitch settings segment tick -
      (settings.shruti.toNat + segment.start))
  rw [← wheelAt_eq_bendValue] at hWheel
  refine ⟨noteNumber settings segment,
    wheelAt settings segment tick,
    heardAt_of_ofSegments hVelocity hTune hTick, ?_, ?_⟩
  · rw [soundingPitch, hNumber, add_sub_add_left_eq_sub]
    exact hWheel
  · intro hReach
    rw [limitBend_askedPitch hReach] at hWheel
    rw [soundingPitch, hNumber]
    have hSame :
        settings.shruti.toNat + segment.start +
            semitonesOf (wheelAt settings segment tick) -
            askedPitch settings segment tick =
          semitonesOf (wheelAt settings segment tick) -
            (askedPitch settings segment tick -
              (settings.shruti.toNat + segment.start)) := by
      ring
    rw [hSame]
    exact hWheel

/- A slide over two semitones. -/
def shortSlide : Segment ℚ :=
  ⟨5, 7, 1, Registry.slide, ⟨1, 3⟩⟩

/- A slide over five octaves, farther than the wheel goes. -/
def longSlide : Segment ℚ :=
  ⟨0, 60, 1, Registry.slide, ⟨1, 6⟩⟩

theorem heardAt_within_step_slides :
    ∃ events,
      ofSegments brisk [shortSlide, longSlide] =
          .ok events ∧
        (∃ note wheel,
          Receiver.heardAt events 1 = ⟨{note}, wheel⟩ ∧
            |soundingPitch note wheel -
                askedPitch brisk shortSlide 1| ≤
              12 / 8192) ∧
        ∃ note wheel,
          Receiver.heardAt events
              (lengthOf brisk [shortSlide] + 1) =
            ⟨{note}, wheel⟩ ∧
          |soundingPitch note wheel -
              (brisk.shruti.toNat + longSlide.start +
                limitBend
                  (askedPitch brisk longSlide 1 -
                    (brisk.shruti.toNat +
                      longSlide.start)))| ≤
            12 / 8192 := by
  let events : List Midi.Event :=
    [⟨0, 0, .programChange 40⟩,
      ⟨0, 0, .controlChange 0x65 0x00⟩,
      ⟨0, 0, .controlChange 0x64 0x00⟩,
      ⟨0, 0, .controlChange 0x06 12⟩,
      ⟨0, 0, .controlChange 0x26 0x00⟩,
      ⟨0, 0, .controlChange 0x65 0x7F⟩,
      ⟨0, 0, .controlChange 0x64 0x7F⟩,
      ⟨0, 0, .noteOn 69 64⟩,
      ⟨0, 0, .pitchBend 0⟩,
      ⟨1, 0, .pitchBend 341⟩,
      ⟨1, 0, .noteOn 64 64⟩,
      ⟨0, 0, .noteOff 69⟩,
      ⟨0, 0, .pitchBend 0⟩,
      ⟨1, 0, .pitchBend 8191⟩,
      ⟨1, 0, .noteOff 64⟩]
  have hTune :
      ofSegments brisk [shortSlide, longSlide] =
        .ok events := by
    decide +kernel
  have hReach :
      |(shortSlide.target : ℚ) - shortSlide.start| ≤ 12 := by
    decide +kernel
  rcases heardAt_within_step brisk [] [longSlide] shortSlide
      events 1 (by decide) hTune (by decide) with
    ⟨note, wheel, hHeard, _, hNear⟩
  rcases heardAt_within_step brisk [shortSlide] [] longSlide
      events 1 (by decide) hTune (by decide) with
    ⟨later, bent, hLater, hLimited, _⟩
  exact ⟨events, hTune, ⟨note, wheel, hHeard, hNear hReach⟩,
    later, bent, hLater, hLimited⟩

end Performance

end Carnatic
