import Carnatic.Proofs.Performance.Schedule
import Carnatic.Proofs.Reading.First
import Carnatic.Proofs.Rendition.Tune
import Mathlib.Data.List.Forall2

/-
  Renditions of one text under two settings.

  Where the settings count time alike, two performances of one
  tune stay in step: they start and stop notes at the same
  places of their streams, the same time apart, and every note
  of one lies as far from that of the other as the shrutis do.
  Bends do not depend on the shruti at all.

  Main declarations:
    * `Settings.Shifts`
    * `Midi.Message.Matches` and `Midi.Event.Matches`
    * `Performance.InStep`
    * `Performance.InStep.segments`
    * `Rendition.transposes_of_ofText`
-/

------------------------------------------------------------
-- Matching Events
------------------------------------------------------------

namespace Carnatic

variable {R : Type}

/- Two notes that lie as far apart as the shrutis of two
settings do. -/
def Settings.Shifts
    (first second : Settings R)
    (note other : UInt8) : Prop :=
  (other.toNat : Int) - note.toNat =
    second.shruti.toNat - first.shruti.toNat

namespace Settings

variable {first second : Settings R}

/- Notes that are shifted alike agree exactly where their
shifted notes do. -/
theorem Shifts.eq_iff
    {note other old older : UInt8}
    (hNote : first.Shifts second note other)
    (hOld : first.Shifts second old older) :
    old = note ↔ older = other := by
  unfold Shifts at hNote hOld
  rw [← UInt8.toNat_inj, ← UInt8.toNat_inj]
  omega

theorem Shifts.eq_of_shruti_eq
    {note other : UInt8}
    (hShifts : first.Shifts second note other)
    (hShruti : first.shruti = second.shruti) :
    note = other := by
  unfold Shifts at hShifts
  rw [hShruti] at hShifts
  rw [← UInt8.toNat_inj]
  omega

end Settings

namespace Midi

/-
  One message under two settings: of the same kind, with the
  program and the velocity that the settings ask for, notes
  that are shifted, and all other values equal.
-/
inductive Message.Matches
    (first second : Settings R) : Message → Message → Prop
| programChange :
    Matches first second (.programChange first.program)
      (.programChange second.program)
| controlChange (controller value : UInt8) :
    Matches first second (.controlChange controller value)
      (.controlChange controller value)
| noteOn
    {note other : UInt8}
    (hShifts : first.Shifts second note other) :
    Matches first second (.noteOn note first.velocity)
      (.noteOn other second.velocity)
| noteOff
    {note other : UInt8}
    (hShifts : first.Shifts second note other) :
    Matches first second (.noteOff note) (.noteOff other)
| pitchBend (value : Int) :
    Matches first second (.pitchBend value)
      (.pitchBend value)

/- One event under two settings: after the same delta, on the
channels that the settings ask for. -/
structure Event.Matches
    (first second : Settings R)
    (event other : Event) : Prop where
  delta_eq : event.delta = other.delta
  channel_eq : event.channel = first.channel
  other_channel_eq : other.channel = second.channel
  message : event.message.Matches first second other.message

/- Settings that address a device alike send the same
events. -/
theorem Event.Matches.eq_of_settings
    {first second : Settings R}
    {event other : Event}
    (hMatches : event.Matches first second other)
    (hShruti : first.shruti = second.shruti)
    (hProgram : first.program = second.program)
    (hChannel : first.channel = second.channel)
    (hVelocity : first.velocity = second.velocity) :
    event = other := by
  rcases event with ⟨delta, channel, message⟩
  rcases other with ⟨otherDelta, otherChannel, otherMessage⟩
  rcases hMatches with ⟨rfl, rfl, rfl, hMessage⟩
  have hSame : message = otherMessage := by
    cases hMessage with
    | programChange => rw [hProgram]
    | controlChange controller value => rfl
    | noteOn hShifts =>
        rw [hShifts.eq_of_shruti_eq hShruti, hVelocity]
    | noteOff hShifts =>
        rw [hShifts.eq_of_shruti_eq hShruti]
    | pitchBend value => rfl
  rw [hSame, hChannel]

end Midi

------------------------------------------------------------
-- Performances In Step
------------------------------------------------------------

namespace Performance

/-
  Two performances under two settings that have reached the
  same place: as many ticks are pending, both or none sound a
  note, and their events match one by one.
-/
structure InStep
    (first second : Settings R)
    (performance other : Performance R) : Prop where
  settings_eq : performance.settings = first
  other_settings_eq : other.settings = second
  gap_eq : performance.gap = other.gap
  sounding :
    Option.Rel (first.Shifts second)
      performance.sounding other.sounding
  events :
    List.Forall₂ (Midi.Event.Matches first second)
      performance.events.toList other.events.toList

/- The changes to two notes that are shifted like the notes
before them match. -/
theorem matches_changeTo
    {first second : Settings R}
    {note other : UInt8}
    {sounding otherSounding : Option UInt8}
    (hNote : first.Shifts second note other)
    (hSounding :
      Option.Rel (first.Shifts second)
        sounding otherSounding) :
    List.Forall₂ (Midi.Message.Matches first second)
      (changeTo first.velocity note sounding)
      (changeTo second.velocity other otherSounding) := by
  cases hSounding with
  | none => exact .cons (.noteOn hNote) .nil
  | @some old older hOld =>
      by_cases hSame : old = note
      · have hOther := (hNote.eq_iff hOld).mp hSame
        simp [changeTo, hSame, hOther]
      · have hOther := (hNote.eq_iff hOld).not.mp hSame
        simp only [changeTo, hSame, hOther, if_false]
        exact .cons (.noteOn hNote)
          (.cons (.noteOff hOld) .nil)

/- So do the ends of two notes that are shifted. -/
theorem matches_noteOff
    {first second : Settings R}
    {sounding otherSounding : Option UInt8}
    (hSounding :
      Option.Rel (first.Shifts second)
        sounding otherSounding) :
    List.Forall₂ (Midi.Message.Matches first second)
      (sounding.toList.map Midi.Message.noteOff)
      (otherSounding.toList.map Midi.Message.noteOff) := by
  cases hSounding with
  | none => exact .nil
  | some hNote => exact .cons (.noteOff hNote) .nil

namespace InStep

variable {first second : Settings R}
variable {performance other : Performance R}

/- Messages that match are sent in step. -/
theorem emit
    (hStep : InStep first second performance other)
    {message otherMessage : Midi.Message}
    (hMessage :
      message.Matches first second otherMessage) :
    InStep first second (performance.emit message)
      (other.emit otherMessage) where
  settings_eq := hStep.settings_eq
  other_settings_eq := hStep.other_settings_eq
  gap_eq := rfl
  sounding := hStep.sounding
  events := by
    rw [events_emit, events_emit, hStep.gap_eq,
      hStep.settings_eq, hStep.other_settings_eq]
    exact List.rel_append hStep.events
      (.cons ⟨rfl, rfl, rfl, hMessage⟩ .nil)

theorem foldl_emit
    (hStep : InStep first second performance other)
    {messages otherMessages : List Midi.Message}
    (hMessages :
      List.Forall₂ (Midi.Message.Matches first second)
        messages otherMessages) :
    InStep first second
      (messages.foldl Performance.emit performance)
      (otherMessages.foldl Performance.emit other) := by
  induction hMessages generalizing performance other with
  | nil => exact hStep
  | cons hMessage _ ih => exact ih (hStep.emit hMessage)

theorem play
    (hStep : InStep first second performance other)
    {note otherNote : UInt8}
    (hNote : first.Shifts second note otherNote) :
    InStep first second (performance.play note)
      (other.play otherNote) := by
  have hChange := hStep.foldl_emit
    (matches_changeTo hNote hStep.sounding)
  rw [play_eq, play_eq, hStep.settings_eq,
    hStep.other_settings_eq]
  exact ⟨hChange.settings_eq, hChange.other_settings_eq,
    hChange.gap_eq, .some hNote, hChange.events⟩

theorem stop
    (hStep : InStep first second performance other) :
    InStep first second performance.stop other.stop := by
  have hStopped :=
    hStep.foldl_emit (matches_noteOff hStep.sounding)
  rw [stop_eq, stop_eq]
  exact ⟨hStopped.settings_eq, hStopped.other_settings_eq,
    hStopped.gap_eq, .none, hStopped.events⟩

end InStep

/- Performances begin in step: the setup does not depend on
the settings, but for the program. -/
theorem inStep_start (first second : Settings R) :
    InStep first second (start first) (start second) := by
  have hSilence :
      InStep first second
        (⟨first, 0, none, #[]⟩ : Performance R)
        ⟨second, 0, none, #[]⟩ :=
    ⟨rfl, rfl, rfl, .none, .nil⟩
  have hSetup :
      List.Forall₂ (Midi.Message.Matches first second)
        bendRangeSetup bendRangeSetup := by
    rw [List.forall₂_same]
    intro message hMessage
    simp only [bendRangeSetup, List.mem_cons,
      List.not_mem_nil, or_false] at hMessage
    rcases hMessage with rfl | rfl | rfl | rfl | rfl | rfl
      <;> exact .controlChange _ _
  exact hSilence.foldl_emit (.cons .programChange hSetup)

------------------------------------------------------------
-- Segments In Step
------------------------------------------------------------

variable [Scalar R]

/- The length and the bends of a segment depend on how the
settings count time, and on nothing else. -/
theorem ticksOf_eq_of_settings
    {first second : Settings R}
    (hTicks : first.ticksPerUnit = second.ticksPerUnit)
    (segment : Segment R) :
    ticksOf first segment = ticksOf second segment := by
  rw [ticksOf, ticksOf, hTicks]

theorem bendAt_eq_of_settings
    {first second : Settings R}
    (hEase : first.easeExponent = second.easeExponent)
    (segment : Segment R)
    (ticks tick : Nat) :
    bendAt first segment ticks tick =
      bendAt second segment ticks tick := by
  rw [bendAt, bendAt, hEase]

/- The notes of one segment are shifted. -/
theorem shifts_of_noteOf?
    {first second : Settings R}
    {segment : Segment R}
    {note other : UInt8}
    (hNote : noteOf? first segment = some note)
    (hOther : noteOf? second segment = some other) :
    first.Shifts second note other := by
  rcases noteOf?_eq_some_iff.mp hNote with
    ⟨hLow, hHigh, rfl⟩
  rcases noteOf?_eq_some_iff.mp hOther with
    ⟨hOtherLow, hOtherHigh, rfl⟩
  rw [Settings.Shifts, toNat_noteNumber hLow hHigh,
    toNat_noteNumber hOtherLow hOtherHigh]
  omega

namespace InStep

variable {first second : Settings R}
variable {performance other : Performance R}
variable {reached otherReached : Performance R}

/- Following a segment keeps performances in step: its bends
are the same under both settings. -/
theorem follow
    (hStep : InStep first second performance other)
    (hTicks : first.ticksPerUnit = second.ticksPerUnit)
    (hEase : first.easeExponent = second.easeExponent)
    (segment : Segment R)
    (count : Nat) :
    InStep first second (performance.follow segment count)
      (other.follow segment count) := by
  induction count with
  | zero => exact hStep
  | succ count ih =>
      have hBend := ih.emit (.pitchBend (bendValue
        (bendAt first segment (ticksOf first segment) count)))
      rw [Performance.follow, Performance.follow,
        hStep.settings_eq, hStep.other_settings_eq,
        ← ticksOf_eq_of_settings hTicks,
        ← bendAt_eq_of_settings hEase]
      exact ⟨hBend.settings_eq, hBend.other_settings_eq,
        rfl, hBend.sounding, hBend.events⟩

/- A segment that plays under both settings keeps
performances in step. -/
theorem segment
    (hStep : InStep first second performance other)
    (hTicks : first.ticksPerUnit = second.ticksPerUnit)
    (hEase : first.easeExponent = second.easeExponent)
    {segment : Segment R}
    (hSegment : performance.segment segment = .ok reached)
    (hOther : other.segment segment = .ok otherReached) :
    InStep first second reached otherReached := by
  rcases segment_eq_ok_iff.mp hSegment with
    ⟨note, hNote, rfl⟩
  rcases segment_eq_ok_iff.mp hOther with
    ⟨otherNote, hOtherNote, rfl⟩
  rw [hStep.settings_eq] at hNote ⊢
  rw [hStep.other_settings_eq] at hOtherNote ⊢
  rw [← ticksOf_eq_of_settings hTicks]
  exact (hStep.play
    (shifts_of_noteOf? hNote hOtherNote)).follow
      hTicks hEase segment _

/- So do all segments of a tune. -/
theorem segments
    (hStep : InStep first second performance other)
    (hTicks : first.ticksPerUnit = second.ticksPerUnit)
    (hEase : first.easeExponent = second.easeExponent)
    {tune : List (Segment R)}
    (hTune : performance.segments tune = .ok reached)
    (hOther : other.segments tune = .ok otherReached) :
    InStep first second reached otherReached := by
  induction tune generalizing performance other with
  | nil =>
      simp only [Performance.segments,
        Except.ok.injEq] at hTune hOther
      rwa [← hTune, ← hOther]
  | cons head rest ih =>
      rcases segments_cons_eq_ok_iff.mp hTune with
        ⟨following, hHead, hRest⟩
      rcases segments_cons_eq_ok_iff.mp hOther with
        ⟨otherFollowing, hOtherHead, hOtherRest⟩
      exact ih
        (hStep.segment hTicks hEase hHead hOtherHead)
        hRest hOtherRest

end InStep

/- The events of one tune under two settings match one by
one. -/
theorem matches_of_ofSegments
    {first second : Settings R}
    {tune : List (Segment R)}
    {events otherEvents : List Midi.Event}
    (hTicks : first.ticksPerUnit = second.ticksPerUnit)
    (hEase : first.easeExponent = second.easeExponent)
    (hTune : ofSegments first tune = .ok events)
    (hOther : ofSegments second tune = .ok otherEvents) :
    List.Forall₂ (Midi.Event.Matches first second)
      events otherEvents := by
  rcases exists_hasPlayed_of_ofSegments hTune with
    ⟨reached, hReached, _, rfl⟩
  rcases exists_hasPlayed_of_ofSegments hOther with
    ⟨otherReached, hOtherReached, _, rfl⟩
  exact ((inStep_start first second).segments hTicks hEase
    hReached hOtherReached).stop.events

end Performance

------------------------------------------------------------
-- Transposed Renditions
------------------------------------------------------------

namespace Rendition

/-
  What two renditions of a text have in common. They have as
  many segments, and their events match one by one. The ticks
  of a quarter note change nothing: where the settings address
  the device alike, the events are the same.
-/
structure Transposes
    (first second : Settings R)
    (rendition other : Rendition) : Prop where
  segmentCount_eq :
    rendition.segmentCount = other.segmentCount
  matches_events :
    List.Forall₂ (Midi.Event.Matches first second)
      rendition.events other.events
  events_eq :
    first.shruti = second.shruti →
      first.program = second.program →
      first.channel = second.channel →
      first.velocity = second.velocity →
      rendition.events = other.events

variable [Scalar R]

/- A text that is rendered under two settings which count time
alike is transposed from one to the other. -/
theorem transposes_of_ofText
    (registry : Registry R)
    (text : String)
    (first second : Settings R)
    (hTicks : first.ticksPerUnit = second.ticksPerUnit)
    (hEase : first.easeExponent = second.easeExponent)
    (rendition other : Rendition)
    (hFirst : ofText first registry text = .ok rendition)
    (hSecond : ofText second registry text = .ok other) :
    Transposes first second rendition other := by
  rcases ofText_eq_ok_iff.mp hFirst with
    ⟨tune, hTune, hEvents, hCount⟩
  rcases ofText_eq_ok_iff.mp hSecond with
    ⟨otherTune, hOtherTune, hOtherEvents, hOtherCount⟩
  rw [hTune, Except.ok.injEq] at hOtherTune
  subst hOtherTune
  have hMatches := Performance.matches_of_ofSegments
    hTicks hEase hEvents hOtherEvents
  refine ⟨hCount.trans hOtherCount.symm, hMatches, ?_⟩
  intro hShruti hProgram hChannel hVelocity
  have hSame :
      List.Forall₂ (· = ·) rendition.events other.events := by
    refine hMatches.imp ?_
    intro event otherEvent hEvent
    exact hEvent.eq_of_settings hShruti hProgram hChannel
      hVelocity
  rwa [List.forall₂_eq_eq_eq] at hSame

/- Settings that count time like the brisk ones, for a voice
an octave below on another channel. -/
def lowVoice : Settings Rat :=
  { Performance.brisk with
    shruti := 52
    program := 71
    channel := 3
    velocity := 90
    ticksPerBeat := 96 }

/- A slide over a hold to the octave, which the next line
repeats. -/
def phrase : String :=
  "\x7b sa , sa+ \x7d \x7b :/ : \x7d\n\x7b , \x7d \x7b : \x7d"

theorem transposes_phrase :
    ∃ rendition other,
      ofText Performance.brisk Registry.builtin phrase =
          .ok rendition ∧
        ofText lowVoice Registry.builtin phrase = .ok other ∧
        Transposes Performance.brisk lowVoice
          rendition other := by
  have hFirst :
      (ofText Performance.brisk Registry.builtin
        phrase).isOk = true := by
    decide +kernel
  have hSecond :
      (ofText lowVoice Registry.builtin
        phrase).isOk = true := by
    decide +kernel
  rcases exists_eq_ok_of_isOk hFirst with
    ⟨rendition, hRendition⟩
  rcases exists_eq_ok_of_isOk hSecond with ⟨other, hOther⟩
  exact ⟨rendition, other, hRendition, hOther,
    transposes_of_ofText Registry.builtin phrase
      Performance.brisk lowVoice rfl rfl rendition other
      hRendition hOther⟩

end Rendition

end Carnatic
