import Carnatic.Proofs.Performance.Clock
import Mathlib.Data.List.Basic
import Mathlib.Data.List.Induction

/-
  The schedule of a tune.

  A tune's segments lie one after the other on an unbounded
  axis of ticks, which fixes every event of the tune and its
  absolute tick. A performance sends exactly these events.

  Main declarations:
    * `Performance.schedule`
    * `Performance.HasPlayed`
    * `Performance.HasPlayed.segment`
    * `Performance.HasPlayed.segments`
    * `Performance.onSchedule_of_ofSegments`
-/

------------------------------------------------------------
-- Lengths And Notes
------------------------------------------------------------

namespace Carnatic

namespace Performance

variable {R : Type} [Scalar R]

/- The ticks that segments take together. -/
def lengthOf (settings : Settings R) :
    List (Segment R) → Nat
| [] => 0
| segment :: rest =>
    ticksOf settings segment + lengthOf settings rest

@[simp]
theorem lengthOf_append
    (settings : Settings R)
    (first second : List (Segment R)) :
    lengthOf settings (first ++ second) =
      lengthOf settings first +
        lengthOf settings second := by
  induction first with
  | nil => simp [lengthOf]
  | cons segment rest ih =>
      simp only [List.cons_append, lengthOf, ih]
      omega

@[simp]
theorem lengthOf_singleton
    (settings : Settings R)
    (segment : Segment R) :
    lengthOf settings [segment] =
      ticksOf settings segment := by
  simp [lengthOf]

/- The note of a segment: the shruti and the semitones from
it. -/
def noteNumber
    (settings : Settings R)
    (segment : Segment R) : UInt8 :=
  UInt8.ofNat (settings.shruti.toNat + segment.start).toNat

/- A segment whose note exists has the note that the shruti
and its start add up to. -/
theorem noteOf?_eq_some_iff
    {settings : Settings R}
    {segment : Segment R}
    {note : UInt8} :
    noteOf? settings segment = some note ↔
      0 ≤ settings.shruti.toNat + segment.start ∧
        settings.shruti.toNat + segment.start ≤ 127 ∧
        note = noteNumber settings segment := by
  by_cases hRange :
      0 ≤ settings.shruti.toNat + segment.start ∧
        settings.shruti.toNat + segment.start ≤ 127
  · simp [noteOf?, noteNumber, hRange, eq_comm]
  · simp only [noteOf?, if_neg hRange]
    constructor
    · intro hNote
      simp at hNote
    · intro hNote
      exact absurd ⟨hNote.1, hNote.2.1⟩ hRange

/- The note of a segment that plays is not cut off. -/
theorem toNat_noteNumber
    {settings : Settings R}
    {segment : Segment R}
    (hLow : 0 ≤ settings.shruti.toNat + segment.start)
    (hHigh :
      settings.shruti.toNat + segment.start ≤ 127) :
    ((noteNumber settings segment).toNat : Int) =
      settings.shruti.toNat + segment.start := by
  unfold noteNumber
  rw [UInt8.toNat_ofNat']
  omega

------------------------------------------------------------
-- Schedules
------------------------------------------------------------

/- The wheel's value at a tick of a segment: the pitch of the
curve at the eased time, seen from the segment's start. -/
def wheelAt
    (settings : Settings R)
    (segment : Segment R)
    (tick : Nat) : Int :=
  let time : R := Scalar.power
    (Scalar.ofInt tick /
      Scalar.ofInt (ticksOf settings segment))
    settings.easeExponent
  bendValue
    (segment.curve.sample time segment.start
        segment.target -
      Scalar.ofInt segment.start)

/- The events in front of every tune. -/
def opening (settings : Settings R) : List Midi.Timed :=
  (.programChange settings.program :: bendRangeSetup).map
    fun message => ⟨0, settings.channel, message⟩

/-
  The events of a segment that is played behind others. Its
  note starts, and the last one stops, where these end, unless
  both are the same; every tick has a bend.
-/
def passage
    (settings : Settings R)
    (before : List (Segment R))
    (segment : Segment R) : List Midi.Timed :=
  let beginning := lengthOf settings before
  let last := before.getLast?.map (noteNumber settings)
  ((changeTo settings.velocity
      (noteNumber settings segment) last).map
    fun message => ⟨beginning, settings.channel, message⟩) ++
  (List.range (ticksOf settings segment)).map
    fun tick =>
      ⟨beginning + tick, settings.channel,
        .pitchBend (wheelAt settings segment tick)⟩

/- The events of all segments of a tune. -/
def passages
    (settings : Settings R)
    (tune : List (Segment R)) : List Midi.Timed :=
  tune.zipIdx.flatMap fun (segment, index) =>
    passage settings (tune.take index) segment

/- The event that closes a tune with segments. -/
def closing
    (settings : Settings R)
    (tune : List (Segment R)) : List Midi.Timed :=
  tune.getLast?.toList.map fun last =>
    ⟨lengthOf settings tune, settings.channel,
      .noteOff (noteNumber settings last)⟩

/- All events of a tune at their absolute ticks. -/
def schedule
    (settings : Settings R)
    (tune : List (Segment R)) : List Midi.Timed :=
  opening settings ++ passages settings tune ++
    closing settings tune

------------------------------------------------------------
-- Appending Segments
------------------------------------------------------------

/- A segment at the end adds its passage and leaves those
before it alone. -/
theorem passages_concat
    (settings : Settings R)
    (before : List (Segment R))
    (segment : Segment R) :
    passages settings (before ++ [segment]) =
      passages settings before ++
        passage settings before segment := by
  have hBefore :
      (before.zipIdx.flatMap fun (other, index) =>
          passage settings
            ((before ++ [segment]).take index) other) =
        passages settings before := by
    apply List.flatMap_congr
    rintro ⟨other, index⟩ hEntry
    have hIndex : index < before.length + 0 :=
      List.snd_lt_of_mem_zipIdx hEntry
    have hTake :
        (before ++ [segment]).take index =
          before.take index :=
      List.take_append_of_le_length (by omega)
    simp only [hTake]
  unfold passages at hBefore ⊢
  rw [List.zipIdx_append, List.flatMap_append, hBefore]
  simp

------------------------------------------------------------
-- Playing To Schedule
------------------------------------------------------------

/-
  A performance that has played some segments: it stands at
  their end, sounds the note of the last one, and has sent
  their events at the ticks of the schedule.
-/
structure HasPlayed
    (settings : Settings R)
    (tune : List (Segment R))
    (performance : Performance R) : Prop where
  settings_eq : performance.settings = settings
  sounding_eq :
    performance.sounding =
      tune.getLast?.map (noteNumber settings)
  now_eq : performance.now = lengthOf settings tune
  timed_eq :
    performance.timed =
      opening settings ++ passages settings tune
  steady : performance.IsSteady

/- A performance begins with the opening at tick zero. -/
theorem hasPlayed_start (settings : Settings R) :
    HasPlayed settings [] (start settings) where
  settings_eq := rfl
  sounding_eq := rfl
  now_eq := rfl
  timed_eq := rfl
  steady := by
    apply IsSteady.foldl_emit
    exact ⟨UInt32.zero_le, by simp⟩

namespace HasPlayed

variable {settings : Settings R}
variable {before : List (Segment R)}
variable {performance reached : Performance R}

/- Playing one more segment keeps to the schedule. -/
theorem segment
    (hPlayed : HasPlayed settings before performance)
    {segment : Segment R}
    (hSegment : performance.segment segment = .ok reached) :
    HasPlayed settings (before ++ [segment]) reached := by
  rcases segment_eq_ok_iff.mp hSegment with
    ⟨note, hNote, rfl⟩
  rw [hPlayed.settings_eq] at hNote ⊢
  have hNumber := (noteOf?_eq_some_iff.mp hNote).2.2
  subst hNumber
  refine ⟨?_, ?_, ?_, ?_, ?_⟩
  · simp [hPlayed.settings_eq]
  · simp
  · simp [hPlayed.now_eq]
  · rw [timed_follow, timed_play, passages_concat,
      hPlayed.timed_eq, hPlayed.sounding_eq]
    simp only [settings_play, now_play,
      hPlayed.settings_eq, hPlayed.now_eq,
      List.append_assoc]
    rfl
  · exact (hPlayed.steady.play _).follow segment _

/- Playing a whole list of segments keeps to the schedule. -/
theorem segments
    (hPlayed : HasPlayed settings before performance)
    {tune : List (Segment R)}
    (hSegments : performance.segments tune = .ok reached) :
    HasPlayed settings (before ++ tune) reached := by
  induction tune generalizing before performance with
  | nil =>
      simp only [Performance.segments,
        Except.ok.injEq] at hSegments
      subst hSegments
      simpa using hPlayed
  | cons first rest ih =>
      rcases segments_cons_eq_ok_iff.mp hSegments with
        ⟨following, hFirst, hRest⟩
      simpa using ih (hPlayed.segment hFirst) hRest

/- The events of a finished performance are the schedule of
what it has played. -/
theorem timed_finish
    (hPlayed : HasPlayed settings before performance) :
    Midi.timed performance.finish =
      schedule settings before := by
  have hStop := timed_stop performance
  rw [hPlayed.timed_eq, hPlayed.sounding_eq,
    hPlayed.now_eq, hPlayed.settings_eq] at hStop
  refine Eq.trans hStop ?_
  cases hLast : before.getLast? with
  | none => simp [schedule, closing, hLast]
  | some last => simp [schedule, closing, hLast]

/- The last note pays the tick that is still pending. -/
theorem elapsed_finish
    (hPlayed : HasPlayed settings before performance) :
    Midi.elapsed performance.finish =
      lengthOf settings before := by
  have hNow := hPlayed.now_eq
  have hSounding := hPlayed.sounding_eq
  unfold finish stop
  cases hLast : before.getLast? with
  | none =>
      have hEmpty : before = [] :=
        List.getLast?_eq_none_iff.mp hLast
      subst hEmpty
      rw [hLast] at hSounding
      simp only [hSounding, Option.map_none]
      rw [now] at hNow
      have hZero : lengthOf settings [] = 0 := rfl
      omega
  | some last =>
      rw [hLast] at hSounding
      simp only [hSounding, Option.map_some]
      have hEmit := now_emit performance
        (.noteOff (noteNumber settings last))
      simp only [now, gap_emit] at hEmit hNow
      exact hEmit.trans hNow

end HasPlayed

------------------------------------------------------------
-- Whole Tunes
------------------------------------------------------------

/- Segments in two parts are played part by part. -/
theorem segments_append_eq_ok_iff
    {performance final : Performance R}
    {first second : List (Segment R)} :
    performance.segments (first ++ second) = .ok final ↔
      ∃ reached,
        performance.segments first = .ok reached ∧
          reached.segments second = .ok final := by
  induction first generalizing performance with
  | nil => simp [Performance.segments]
  | cons segment rest ih =>
      simp only [List.cons_append, segments_cons_eq_ok_iff, ih]
      constructor
      · rintro ⟨following, hSegment, reached, hRest, hFinal⟩
        exact ⟨reached, ⟨following, hSegment, hRest⟩, hFinal⟩
      · rintro ⟨reached, ⟨following, hSegment, hRest⟩, hFinal⟩
        exact ⟨following, hSegment, reached, hRest, hFinal⟩

/-
  What it means for events to keep to the schedule of a tune.
  The states on the way are those before each segment and
  after each of its ticks.
-/
structure OnSchedule
    (settings : Settings R)
    (tune : List (Segment R))
    (events : List Midi.Event) : Prop where
  timed_eq : Midi.timed events = schedule settings tune
  note_eq :
    ∀ segment ∈ tune,
      ((noteNumber settings segment).toNat : Int) =
        settings.shruti.toNat + segment.start
  delta_le : ∀ event ∈ events, event.delta ≤ 1
  elapsed_eq : Midi.elapsed events = lengthOf settings tune
  gap_le :
    ∀ before segment after,
      tune = before ++ segment :: after →
        ∃ reached,
          (start settings).segments before = .ok reached ∧
            ∀ count ≤ ticksOf settings segment,
              ((reached.play
                (noteNumber settings segment)).follow
                  segment count).gap ≤ 1

/- In front of each segment of a tune that plays, the
performance is on schedule, and the segment has a note. -/
theorem hasPlayed_of_split
    {settings : Settings R}
    {before after : List (Segment R)}
    {segment : Segment R}
    {final : Performance R}
    (hTune :
      (start settings).segments
        (before ++ segment :: after) = .ok final) :
    ∃ reached,
      (start settings).segments before = .ok reached ∧
        HasPlayed settings before reached ∧
        noteOf? settings segment =
          some (noteNumber settings segment) := by
  rcases segments_append_eq_ok_iff.mp hTune with
    ⟨reached, hBefore, hRest⟩
  rcases segments_cons_eq_ok_iff.mp hRest with
    ⟨following, hSegment, _⟩
  have hPlayed : HasPlayed settings before reached :=
    (hasPlayed_start settings).segments hBefore
  rcases segment_eq_ok_iff.mp hSegment with ⟨note, hNote, _⟩
  rw [hPlayed.settings_eq] at hNote
  refine ⟨reached, hBefore, hPlayed, ?_⟩
  rw [hNote, (noteOf?_eq_some_iff.mp hNote).2.2]

/- A tune that plays to its end sends its schedule. -/
theorem exists_hasPlayed_of_ofSegments
    {settings : Settings R}
    {tune : List (Segment R)}
    {events : List Midi.Event}
    (hTune : ofSegments settings tune = .ok events) :
    ∃ final,
      (start settings).segments tune = .ok final ∧
        HasPlayed settings tune final ∧
        events = final.finish := by
  unfold ofSegments at hTune
  cases hFinal : (start settings).segments tune with
  | error error => simp [hFinal] at hTune
  | ok final =>
      simp only [hFinal, Except.ok.injEq] at hTune
      have hPlayed :=
        (hasPlayed_start settings).segments hFinal
      exact ⟨final, rfl, hPlayed, hTune.symm⟩

/- No segment of a tune that plays has its note cut off. -/
theorem toNat_noteNumber_of_ofSegments
    {settings : Settings R}
    {before after : List (Segment R)}
    {segment : Segment R}
    {events : List Midi.Event}
    (hTune :
      ofSegments settings (before ++ segment :: after) =
        .ok events) :
    ((noteNumber settings segment).toNat : Int) =
      settings.shruti.toNat + segment.start := by
  rcases exists_hasPlayed_of_ofSegments hTune with
    ⟨final, hFinal, _, _⟩
  rcases hasPlayed_of_split hFinal with ⟨_, _, _, hNote⟩
  rcases noteOf?_eq_some_iff.mp hNote with
    ⟨hLow, hHigh, _⟩
  exact toNat_noteNumber hLow hHigh

/-
  Every tune that plays keeps to its schedule, whatever the
  settings are: each event stands at its absolute tick, no
  event waits for more than one tick, and no tick is lost.
-/
theorem onSchedule_of_ofSegments
    (settings : Settings R)
    (tune : List (Segment R))
    (events : List Midi.Event)
    (hTune : ofSegments settings tune = .ok events) :
    OnSchedule settings tune events := by
  rcases exists_hasPlayed_of_ofSegments hTune with
    ⟨final, hFinal, hPlayed, rfl⟩
  refine
    { timed_eq := hPlayed.timed_finish
      note_eq := ?_
      delta_le := hPlayed.steady.stop.delta_le
      elapsed_eq := hPlayed.elapsed_finish
      gap_le := ?_ }
  · intro segment hSegment
    rcases List.append_of_mem hSegment with
      ⟨before, after, rfl⟩
    exact toNat_noteNumber_of_ofSegments hTune
  · rintro before segment after rfl
    rcases hasPlayed_of_split hFinal with
      ⟨reached, hReached, hBefore, _⟩
    refine ⟨reached, hReached, ?_⟩
    intro count _
    exact ((hBefore.steady.play _).follow
      segment count).gap_le

/- Settings with two ticks a unit and squared time. -/
def brisk : Settings Rat :=
  { Settings.standard with
    ticksPerUnit := 2
    easeExponent := 2 }

/- A slide upwards, a segment without ticks on the note that
it leads to, and a slide that stays on this note. -/
def ascent : List (Segment Rat) :=
  [⟨0, 2, 1, Registry.slide, ⟨1, 3⟩⟩,
    ⟨2, 2, 0, Registry.flat, ⟨1, 6⟩⟩,
    ⟨2, 2, 1, Registry.slide, ⟨2, 3⟩⟩]

theorem onSchedule_ascent :
    ∃ events,
      ofSegments brisk ascent = .ok events ∧
        events.length = 15 ∧
        OnSchedule brisk ascent events := by
  let events : List Midi.Event :=
    [⟨0, 0, .programChange 40⟩,
      ⟨0, 0, .controlChange 0x65 0x00⟩,
      ⟨0, 0, .controlChange 0x64 0x00⟩,
      ⟨0, 0, .controlChange 0x06 12⟩,
      ⟨0, 0, .controlChange 0x26 0x00⟩,
      ⟨0, 0, .controlChange 0x65 0x7F⟩,
      ⟨0, 0, .controlChange 0x64 0x7F⟩,
      ⟨0, 0, .noteOn 64 64⟩,
      ⟨0, 0, .pitchBend 0⟩,
      ⟨1, 0, .pitchBend 341⟩,
      ⟨1, 0, .noteOn 66 64⟩,
      ⟨0, 0, .noteOff 64⟩,
      ⟨0, 0, .pitchBend 0⟩,
      ⟨1, 0, .pitchBend 0⟩,
      ⟨1, 0, .noteOff 66⟩]
  have hTune : ofSegments brisk ascent = .ok events := by
    decide +kernel
  exact ⟨events, hTune, rfl,
    onSchedule_of_ofSegments brisk ascent events hTune⟩

end Performance

end Carnatic
