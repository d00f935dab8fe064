import Carnatic.Performance
import Carnatic.Proofs.Midi.Clock

/-
  The clock of a performance.

  A performance has no absolute clock of its own: it keeps the
  ticks since the last event only. The clock is recovered from
  the events sent so far, and every operation is described by
  the messages that it sends at the present tick.

  Main declarations:
    * `Performance.now` and `Performance.timed`
    * `Performance.play_eq` and `Performance.stop_eq`
    * `Performance.follow`
    * `Performance.segment_eq_ok_iff`
    * `Performance.segments_cons_eq_ok_iff`
    * `Performance.timed_follow`
-/

------------------------------------------------------------
-- The Present Tick
------------------------------------------------------------

namespace Carnatic

namespace Performance

variable {R : Type}

/- The ticks that have passed since the beginning. -/
def now (performance : Performance R) : Nat :=
  Midi.elapsed performance.events.toList +
    performance.gap.toNat

/- The events so far at their absolute ticks. -/
def timed
    (performance : Performance R) : List Midi.Timed :=
  Midi.timed performance.events.toList

------------------------------------------------------------
-- Sending Messages
------------------------------------------------------------

@[simp]
theorem settings_emit
    (performance : Performance R)
    (message : Midi.Message) :
    (performance.emit message).settings =
      performance.settings :=
  rfl

@[simp]
theorem sounding_emit
    (performance : Performance R)
    (message : Midi.Message) :
    (performance.emit message).sounding =
      performance.sounding :=
  rfl

@[simp]
theorem gap_emit
    (performance : Performance R)
    (message : Midi.Message) :
    (performance.emit message).gap = 0 :=
  rfl

@[simp]
theorem events_emit
    (performance : Performance R)
    (message : Midi.Message) :
    (performance.emit message).events.toList =
      performance.events.toList ++
        [⟨performance.gap, performance.settings.channel,
          message⟩] := by
  simp [emit]

/- Sending a message takes no time: what the gap loses, the
event carries. -/
@[simp]
theorem now_emit
    (performance : Performance R)
    (message : Midi.Message) :
    (performance.emit message).now = performance.now := by
  simp [now, Midi.elapsed]

theorem timed_emit
    (performance : Performance R)
    (message : Midi.Message) :
    (performance.emit message).timed =
      performance.timed ++
        [⟨performance.now, performance.settings.channel,
          message⟩] := by
  simp [timed, now, Midi.timed_concat]

@[simp]
theorem settings_foldl_emit
    (performance : Performance R)
    (messages : List Midi.Message) :
    (messages.foldl emit performance).settings =
      performance.settings := by
  induction messages generalizing performance with
  | nil => rfl
  | cons message rest ih => simp [ih]

@[simp]
theorem now_foldl_emit
    (performance : Performance R)
    (messages : List Midi.Message) :
    (messages.foldl emit performance).now =
      performance.now := by
  induction messages generalizing performance with
  | nil => rfl
  | cons message rest ih => simp [ih]

/- Messages sent one after the other all stand at the present
tick. -/
theorem timed_foldl_emit
    (performance : Performance R)
    (messages : List Midi.Message) :
    (messages.foldl emit performance).timed =
      performance.timed ++ messages.map fun message =>
        ⟨performance.now, performance.settings.channel,
          message⟩ := by
  induction messages generalizing performance with
  | nil => simp
  | cons message rest ih =>
      simp [ih, timed_emit]

------------------------------------------------------------
-- Starting And Stopping Notes
------------------------------------------------------------

/- The messages that change the sounding note: the new note
starts, and then the one before it stops. -/
def changeTo
    (velocity : UInt8)
    (note : UInt8) :
    Option UInt8 → List Midi.Message
| none => [.noteOn note velocity]
| some old =>
    if old = note then
      []
    else
      [.noteOn note velocity, .noteOff old]

/- Playing a note sends the change of notes and nothing
else. -/
theorem play_eq
    (performance : Performance R)
    (note : UInt8) :
    performance.play note =
      { (changeTo performance.settings.velocity note
          performance.sounding).foldl emit performance with
        sounding := some note } := by
  rcases performance with ⟨settings, gap, sounding, events⟩
  cases sounding with
  | none => rfl
  | some old =>
      by_cases hSame : old = note
      · simp [play, changeTo, hSame]
      · simp [play, changeTo, hSame]

/- Stopping sends one message, or none in silence. -/
theorem stop_eq (performance : Performance R) :
    performance.stop =
      { (performance.sounding.toList.map
          Midi.Message.noteOff).foldl emit performance with
        sounding := none } := by
  rcases performance with ⟨settings, gap, sounding, events⟩
  cases sounding with
  | none => rfl
  | some note => rfl

@[simp]
theorem settings_play
    (performance : Performance R)
    (note : UInt8) :
    (performance.play note).settings =
      performance.settings := by
  simp [play_eq]

@[simp]
theorem sounding_play
    (performance : Performance R)
    (note : UInt8) :
    (performance.play note).sounding = some note := by
  simp [play_eq]

@[simp]
theorem now_play
    (performance : Performance R)
    (note : UInt8) :
    (performance.play note).now = performance.now := by
  rw [play_eq]
  exact now_foldl_emit performance _

theorem timed_play
    (performance : Performance R)
    (note : UInt8) :
    (performance.play note).timed =
      performance.timed ++
        (changeTo performance.settings.velocity note
          performance.sounding).map fun message =>
            ⟨performance.now, performance.settings.channel,
              message⟩ := by
  rw [play_eq]
  exact timed_foldl_emit performance _

theorem timed_stop (performance : Performance R) :
    performance.stop.timed =
      performance.timed ++
        performance.sounding.toList.map fun note =>
          ⟨performance.now, performance.settings.channel,
            .noteOff note⟩ := by
  rw [stop_eq]
  refine (timed_foldl_emit performance _).trans ?_
  simp

------------------------------------------------------------
-- Following A Segment
------------------------------------------------------------

section Segments

variable [Scalar R]

@[simp]
theorem now_bend_advance
    (performance : Performance R)
    (semitones : R) :
    ((performance.bend semitones).advance 1).now =
      performance.now + 1 := by
  have hBend := now_emit performance
    (.pitchBend (bendValue semitones))
  simp only [now, gap_emit] at hBend ⊢
  simp only [bend, advance, gap_emit]
  exact congrArg (· + 1) hBend

theorem timed_bend_advance
    (performance : Performance R)
    (semitones : R) :
    ((performance.bend semitones).advance 1).timed =
      performance.timed ++
        [⟨performance.now, performance.settings.channel,
          .pitchBend (bendValue semitones)⟩] :=
  timed_emit performance _

/- The first ticks of a segment whose note sounds: one bend
at the start of each. -/
def follow
    (segment : Segment R)
    (performance : Performance R) :
    Nat → Performance R
| 0 => performance
| tick + 1 =>
    ((performance.follow segment tick).bend
      (bendAt performance.settings segment
        (ticksOf performance.settings segment)
        tick)).advance 1

/- The loop over the ticks of a segment follows it tick by
tick. -/
theorem foldl_range_eq_follow
    (segment : Segment R)
    (performance : Performance R)
    (count : Nat) :
    (List.range count).foldl
        (fun reached tick =>
          (reached.bend
            (bendAt performance.settings segment
              (ticksOf performance.settings segment)
              tick)).advance 1)
        performance =
      performance.follow segment count := by
  induction count with
  | zero => rfl
  | succ count ih =>
      rw [List.range_succ, List.foldl_append, ih]
      rfl

/- A segment plays exactly when its note exists. It changes
to the note and then follows the curve to its end. -/
theorem segment_eq_ok_iff
    {performance reached : Performance R}
    {segment : Segment R} :
    performance.segment segment = .ok reached ↔
      ∃ note,
        noteOf? performance.settings segment = some note ∧
          reached = (performance.play note).follow segment
            (ticksOf performance.settings segment) := by
  have hLoop := fun note =>
    foldl_range_eq_follow segment (performance.play note)
      (ticksOf performance.settings segment)
  simp only [settings_play] at hLoop
  simp only [Performance.segment]
  cases hNote : noteOf? performance.settings segment with
  | none => simp
  | some note =>
      simp only [hLoop, Except.ok.injEq, Option.some.injEq,
        exists_eq_left']
      exact eq_comm

/- Segments are played one by one. -/
theorem segments_cons_eq_ok_iff
    {performance final : Performance R}
    {segment : Segment R}
    {rest : List (Segment R)} :
    performance.segments (segment :: rest) = .ok final ↔
      ∃ reached,
        performance.segment segment = .ok reached ∧
          reached.segments rest = .ok final := by
  rw [segments]
  cases performance.segment segment <;> simp

@[simp]
theorem settings_follow
    (segment : Segment R)
    (performance : Performance R)
    (count : Nat) :
    (performance.follow segment count).settings =
      performance.settings := by
  induction count with
  | zero => rfl
  | succ count ih => exact ih

@[simp]
theorem sounding_follow
    (segment : Segment R)
    (performance : Performance R)
    (count : Nat) :
    (performance.follow segment count).sounding =
      performance.sounding := by
  induction count with
  | zero => rfl
  | succ count ih => exact ih

@[simp]
theorem now_follow
    (segment : Segment R)
    (performance : Performance R)
    (count : Nat) :
    (performance.follow segment count).now =
      performance.now + count := by
  induction count with
  | zero => rfl
  | succ count ih =>
      rw [follow, now_bend_advance, ih, Nat.add_assoc]

/- The bends of a segment stand one tick apart, the first at
the present tick. -/
theorem timed_follow
    (segment : Segment R)
    (performance : Performance R)
    (count : Nat) :
    (performance.follow segment count).timed =
      performance.timed ++
        (List.range count).map fun tick =>
          ⟨performance.now + tick,
            performance.settings.channel,
            .pitchBend (bendValue
              (bendAt performance.settings segment
                (ticksOf performance.settings segment)
                tick))⟩ := by
  induction count with
  | zero => simp [follow]
  | succ count ih =>
      rw [follow, timed_bend_advance, ih, now_follow,
        settings_follow, List.range_succ, List.map_append,
        List.append_assoc]
      rfl

end Segments

------------------------------------------------------------
-- Ticks Between Events
------------------------------------------------------------

/-
  A performance that never waits for more than one tick: at
  most one tick is pending, and every event so far came at
  most one tick after the one before it.
-/
structure IsSteady (performance : Performance R) : Prop where
  gap_le : performance.gap ≤ 1
  delta_le :
    ∀ event ∈ performance.events.toList, event.delta ≤ 1

namespace IsSteady

variable {performance : Performance R}

theorem emit
    (hSteady : performance.IsSteady)
    (message : Midi.Message) :
    (performance.emit message).IsSteady where
  gap_le := by simp
  delta_le := by
    intro event hEvent
    rw [events_emit, List.mem_append] at hEvent
    rcases hEvent with hOld | hNew
    · exact hSteady.delta_le event hOld
    · rw [List.mem_singleton] at hNew
      subst event
      exact hSteady.gap_le

theorem foldl_emit
    (hSteady : performance.IsSteady)
    (messages : List Midi.Message) :
    (messages.foldl Performance.emit
      performance).IsSteady := by
  induction messages generalizing performance with
  | nil => exact hSteady
  | cons message rest ih => exact ih (hSteady.emit message)

theorem play
    (hSteady : performance.IsSteady)
    (note : UInt8) :
    (performance.play note).IsSteady := by
  rw [play_eq]
  have hChanged := hSteady.foldl_emit
    (changeTo performance.settings.velocity note
      performance.sounding)
  exact ⟨hChanged.gap_le, hChanged.delta_le⟩

theorem stop
    (hSteady : performance.IsSteady) :
    performance.stop.IsSteady := by
  rw [stop_eq]
  have hStopped := hSteady.foldl_emit
    (performance.sounding.toList.map Midi.Message.noteOff)
  exact ⟨hStopped.gap_le, hStopped.delta_le⟩

theorem follow
    [Scalar R]
    (hSteady : performance.IsSteady)
    (segment : Segment R)
    (count : Nat) :
    (performance.follow segment count).IsSteady := by
  induction count with
  | zero => exact hSteady
  | succ count ih =>
      have hBend := ih.emit
        (.pitchBend (bendValue
          (bendAt performance.settings segment
            (ticksOf performance.settings segment) count)))
      exact ⟨UInt32.le_refl 1, hBend.delta_le⟩

end IsSteady

end Performance

end Carnatic
