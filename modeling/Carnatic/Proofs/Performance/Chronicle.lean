import Carnatic.Proofs.Midi.Delta
import Carnatic.Proofs.Performance.Schedule
import Carnatic.Proofs.Performance.Session
import Mathlib.Algebra.Ring.Nat

/-
  The chronicle of a session.

  The chronicle counts on an unbounded clock: it lets the
  ticks of every step pass and notes at which tick each event
  is sent. A performance counts the ticks since its last event
  only, yet its stream tells the chronicle's ticks.

  Main declarations:
    * `Performance.HasSent`
    * `Performance.Step.ticks` and `Performance.passed`
    * `Performance.sent` and `Performance.chronicle`
    * `Performance.HasSent.attempt`
    * `Performance.keepsTime_session`
-/

------------------------------------------------------------
-- Pending Ticks
------------------------------------------------------------

namespace Carnatic

namespace Performance

variable {R : Type}

/- Messages that are sent at a tick. -/
def sentAt
    (performance : Performance R)
    (tick : Nat)
    (messages : List Midi.Message) : List Midi.Timed :=
  messages.map fun message =>
    ⟨tick, performance.settings.channel, message⟩

/-
  A performance that has sent some events by a tick: they are
  its stream, in order, and the ticks since the last of them
  are pending.
-/
structure HasSent
    (record : List Midi.Timed)
    (clock : Nat)
    (performance : Performance R) : Prop where
  events_eq :
    performance.events.toList = Midi.untimedFrom 0 record
  gap_eq :
    performance.gap =
      UInt32.ofNat (clock - Midi.lastTickFrom 0 record)
  lastTick_le : Midi.lastTickFrom 0 record ≤ clock
  inOrder :
    (0 :: record.map Midi.Timed.tick).IsChain (· ≤ ·)

namespace HasSent

variable {record : List Midi.Timed}
variable {clock : Nat}
variable {performance : Performance R}

/- A message is sent at the present tick. -/
theorem emit
    (hSent : HasSent record clock performance)
    (message : Midi.Message) :
    HasSent
      (record ++ performance.sentAt clock [message])
      clock (performance.emit message) where
  events_eq := by
    rw [events_emit, Midi.untimedFrom_append,
      hSent.events_eq, hSent.gap_eq]
    rfl
  gap_eq := by
    simp [sentAt, Midi.lastTickFrom]
  lastTick_le := by
    simp [sentAt, Midi.lastTickFrom]
  inOrder :=
    Midi.isChain_tick_concat_iff.mpr
      ⟨hSent.inOrder, hSent.lastTick_le⟩

/- Messages are sent at the present tick. -/
theorem foldl_emit
    (hSent : HasSent record clock performance)
    (messages : List Midi.Message) :
    HasSent
      (record ++ performance.sentAt clock messages)
      clock (messages.foldl Performance.emit performance) := by
  induction messages generalizing record performance with
  | nil => simpa [sentAt] using hSent
  | cons message rest ih =>
      have hRest := ih (hSent.emit message)
      simpa [sentAt] using hRest

/- Ticks that pass are pending. -/
theorem advance
    (hSent : HasSent record clock performance)
    (ticks : UInt32) :
    HasSent record (clock + ticks.toNat)
      (performance.advance ticks) where
  events_eq := hSent.events_eq
  gap_eq := by
    have hClock :
        clock + ticks.toNat - Midi.lastTickFrom 0 record =
          clock - Midi.lastTickFrom 0 record +
            ticks.toNat :=
      Nat.sub_add_comm hSent.lastTick_le
    rw [hClock, UInt32.ofNat_add, UInt32.ofNat_toNat,
      ← hSent.gap_eq]
    rfl
  lastTick_le := Nat.le_add_right_of_le hSent.lastTick_le
  inOrder := hSent.inOrder

/- A stream whose events are close together tells the ticks
at which they were sent. -/
theorem timed_eq
    (hSent : HasSent record clock performance)
    (hClose :
      (0 :: record.map Midi.Timed.tick).IsChain
        fun first second =>
          second < first + UInt32.size) :
    performance.timed = record := by
  rw [timed, Midi.timed, hSent.events_eq]
  exact Midi.timedFrom_untimedFrom hSent.inOrder hClose

end HasSent

------------------------------------------------------------
-- Chronicles
------------------------------------------------------------

section Chronicles

variable [Scalar R]

/- The ticks that pass during a step: those it waits for, or
one behind every bend of a segment that plays. -/
def Step.ticks
    (settings : Settings R) : Step R → Nat
| .advance ticks => ticks.toNat
| .segment played =>
    match noteOf? settings played with
    | none => 0
    | some _ => ticksOf settings played
| .play _ => 0
| .stop => 0
| .bend _ => 0

/- The ticks that pass during some steps. -/
def passed
    (settings : Settings R)
    (steps : List (Step R)) : Nat :=
  (steps.map (Step.ticks settings)).sum

/- The bends at the first ticks of a segment that is followed
from a tick on. -/
def bendsFrom
    (performance : Performance R)
    (clock : Nat)
    (segment : Segment R)
    (count : Nat) : List Midi.Timed :=
  (List.range count).map fun tick =>
    ⟨clock + tick, performance.settings.channel,
      .pitchBend (bendValue
        (bendAt performance.settings segment
          (ticksOf performance.settings segment) tick))⟩

/-
  What a step that is done at a tick sends: the change to a
  note, the end of the note that sounds, or bends, which in a
  segment stand one tick apart.
-/
def sent
    (performance : Performance R)
    (clock : Nat) :
    Step R → List Midi.Timed
| .play note =>
    performance.sentAt clock
      (changeTo performance.settings.velocity note
        performance.sounding)
| .stop =>
    performance.sentAt clock
      (performance.sounding.toList.map Midi.Message.noteOff)
| .bend semitones =>
    performance.sentAt clock
      [.pitchBend (bendValue semitones)]
| .advance _ => []
| .segment segment =>
    match noteOf? performance.settings segment with
    | none => []
    | some note =>
        performance.sentAt clock
            (changeTo performance.settings.velocity note
              performance.sounding) ++
          performance.bendsFrom clock segment
            (ticksOf performance.settings segment)

/- What a session sends that begins at a tick. -/
def chronicle :
    Performance R → Nat → List (Step R) → List Midi.Timed
| _, _, [] => []
| performance, clock, step :: rest =>
    performance.sent clock step ++
      (performance.session [step]).2.chronicle
        (clock + step.ticks performance.settings) rest

theorem chronicle_cons
    (performance : Performance R)
    (clock : Nat)
    (step : Step R)
    (rest : List (Step R)) :
    performance.chronicle clock (step :: rest) =
      performance.sent clock step ++
        (performance.attempt step).chronicle
          (clock + step.ticks performance.settings) rest := by
  rw [chronicle, session_eq_run, run_cons, run_nil]

/- What a session from the beginning sends, the setup
first. -/
def record
    (settings : Settings R)
    (steps : List (Step R)) : List Midi.Timed :=
  opening settings ++
    (start settings).chronicle 0 steps

/- What is sent when a session is finished. -/
def ending
    (settings : Settings R)
    (steps : List (Step R)) : List Midi.Timed :=
  ((start settings).session steps).2.sent
    (passed settings steps) .stop

------------------------------------------------------------
-- Keeping A Chronicle
------------------------------------------------------------

namespace HasSent

variable {record : List Midi.Timed}
variable {clock : Nat}
variable {performance : Performance R}

theorem play
    (hSent : HasSent record clock performance)
    (note : UInt8) :
    HasSent
      (record ++ performance.sent clock (.play note))
      clock (performance.play note) := by
  have hChanged := hSent.foldl_emit
    (changeTo performance.settings.velocity note
      performance.sounding)
  rw [play_eq]
  exact ⟨hChanged.events_eq, hChanged.gap_eq,
    hChanged.lastTick_le, hChanged.inOrder⟩

theorem stop
    (hSent : HasSent record clock performance) :
    HasSent (record ++ performance.sent clock .stop)
      clock performance.stop := by
  have hStopped := hSent.foldl_emit
    (performance.sounding.toList.map Midi.Message.noteOff)
  rw [stop_eq]
  exact ⟨hStopped.events_eq, hStopped.gap_eq,
    hStopped.lastTick_le, hStopped.inOrder⟩

/- The bends of a segment are sent one tick apart. -/
theorem follow
    (hSent : HasSent record clock performance)
    (segment : Segment R)
    (count : Nat) :
    HasSent
      (record ++ performance.bendsFrom clock segment count)
      (clock + count)
      (performance.follow segment count) := by
  induction count with
  | zero => simpa [bendsFrom, Performance.follow] using hSent
  | succ count ih =>
      have hBend := (ih.emit (.pitchBend (bendValue
        (bendAt performance.settings segment
          (ticksOf performance.settings segment)
          count)))).advance 1
      simpa [bendsFrom, sentAt, List.range_succ,
        Performance.follow, Performance.bend, Nat.add_assoc]
        using hBend

/- A step sends what the chronicle says, and takes its
ticks. -/
theorem attempt
    (hSent : HasSent record clock performance)
    (step : Step R) :
    HasSent (record ++ performance.sent clock step)
      (clock + step.ticks performance.settings)
      (performance.attempt step) := by
  cases step with
  | play note => exact hSent.play note
  | stop => exact hSent.stop
  | bend semitones => exact hSent.emit _
  | advance ticks =>
      rw [sent, List.append_nil]
      exact hSent.advance ticks
  | segment segment =>
      rw [attempt_segment]
      cases hNote :
          noteOf? performance.settings segment with
      | none =>
          simpa only [sent, Step.ticks, hNote,
            List.append_nil, Nat.add_zero] using hSent
      | some note =>
          have hPlayed := (hSent.play note).follow segment
            (ticksOf performance.settings segment)
          simpa only [sent, Step.ticks, hNote, bendsFrom,
            settings_play, List.append_assoc] using hPlayed

/- A session sends its chronicle and takes the ticks of its
steps. -/
theorem session
    (hSent : HasSent record clock performance)
    (steps : List (Step R)) :
    HasSent
      (record ++ performance.chronicle clock steps)
      (clock + passed performance.settings steps)
      (performance.session steps).2 := by
  rw [session_eq_run]
  induction steps generalizing record clock performance with
  | nil => simpa [chronicle, passed] using hSent
  | cons step rest ih =>
      have hRest := ih (hSent.attempt step)
      simpa [chronicle_cons, passed, Nat.add_assoc] using hRest

end HasSent

/- The setup is sent at the beginning. -/
omit [Scalar R] in
theorem hasSent_start (settings : Settings R) :
    HasSent (opening settings) 0 (start settings) := by
  have hSilence :
      HasSent [] 0
        (⟨settings, 0, none, #[]⟩ : Performance R) :=
    ⟨rfl, rfl, Nat.le_refl 0, by simp⟩
  exact hSilence.foldl_emit
    (.programChange settings.program :: bendRangeSetup)

/- A session from the beginning sends its record. -/
theorem hasSent_session
    (settings : Settings R)
    (steps : List (Step R)) :
    HasSent (record settings steps) (passed settings steps)
      ((start settings).session steps).2 := by
  have hSession := (hasSent_start settings).session steps
  rw [Nat.zero_add] at hSession
  exact hSession

------------------------------------------------------------
-- Steps That Send Nothing
------------------------------------------------------------

/- The note that sounds is the only one to which no change is
needed. -/
omit [Scalar R] in
theorem changeTo_eq_nil_iff
    {velocity note : UInt8}
    {sounding : Option UInt8} :
    changeTo velocity note sounding = [] ↔
      sounding = some note := by
  cases sounding with
  | none => simp [changeTo]
  | some old => by_cases hSame : old = note <;>
      simp [changeTo, hSame]

omit [Scalar R] in
theorem play_of_sounding
    {performance : Performance R}
    {note : UInt8}
    (hSounding : performance.sounding = some note) :
    performance.play note = performance := by
  simp [Performance.play, hSounding]

/- A step that sends nothing changes nothing and takes no
time, unless time is all that it takes. -/
theorem attempt_of_sent_eq_nil
    {performance : Performance R}
    {clock : Nat}
    {step : Step R}
    (hSent : performance.sent clock step = [])
    (hWait : ∀ ticks, step ≠ .advance ticks) :
    performance.attempt step = performance ∧
      step.ticks performance.settings = 0 := by
  cases step with
  | play note =>
      have hSounding :=
        changeTo_eq_nil_iff.mp (List.map_eq_nil_iff.mp hSent)
      exact ⟨play_of_sounding hSounding, rfl⟩
  | stop =>
      have hSilent : performance.sounding = none := by
        simpa [sent, sentAt] using hSent
      refine ⟨?_, rfl⟩
      change performance.stop = performance
      simp [Performance.stop, hSilent]
  | bend semitones => simp [sent, sentAt] at hSent
  | advance ticks => exact absurd rfl (hWait ticks)
  | segment segment =>
      rw [attempt_segment]
      cases hNote :
          noteOf? performance.settings segment with
      | none => simp [Step.ticks, hNote]
      | some note =>
          simp only [sent, hNote, List.append_eq_nil_iff,
            sentAt, bendsFrom, List.map_eq_nil_iff,
            List.range_eq_nil, changeTo_eq_nil_iff] at hSent
          simp only [Step.ticks, hNote, hSent.2, and_true]
          exact play_of_sounding hSent.1

------------------------------------------------------------
-- Keeping Time
------------------------------------------------------------

theorem chronicle_append
    (performance : Performance R)
    (clock : Nat)
    (first second : List (Step R)) :
    performance.chronicle clock (first ++ second) =
      performance.chronicle clock first ++
        (performance.session first).2.chronicle
          (clock + passed performance.settings first)
          second := by
  rw [session_eq_run]
  induction first generalizing performance clock with
  | nil => simp [chronicle, passed]
  | cons step rest ih =>
      simp [chronicle_cons, ih, passed, Nat.add_assoc]

/- A session that goes on sends more, from the tick on at
which it stands. -/
theorem record_append
    (settings : Settings R)
    (first second : List (Step R)) :
    record settings (first ++ second) =
      record settings first ++
        ((start settings).session first).2.chronicle
          (passed settings first) second := by
  have hSettings : (start settings).settings = settings := rfl
  rw [record, chronicle_append, Nat.zero_add, hSettings,
    ← List.append_assoc]
  rfl

/- Behind any part of a session whose events are close
together, they are close together too. -/
theorem isClose_record_of_append
    {settings : Settings R}
    {first second : List (Step R)}
    (hClose :
      Midi.IsClose (record settings (first ++ second))) :
    Midi.IsClose (record settings first) := by
  unfold Midi.IsClose at hClose ⊢
  rw [record_append, List.map_append] at hClose
  exact hClose.left_of_append

/- The stream of a session tells its record, if its events are
close together. -/
theorem timed_session
    {settings : Settings R}
    {steps : List (Step R)}
    (hClose : Midi.IsClose (record settings steps)) :
    ((start settings).session steps).2.timed =
      record settings steps := by
  -- The first event of the setup is sent at tick zero.
  have hFirst : 0 < 0 + UInt32.size := by decide
  exact (hasSent_session settings steps).timed_eq
    (List.isChain_cons_cons.mpr ⟨hFirst, hClose⟩)

/- So does the stream of a finished session. -/
theorem timed_finish_session
    {settings : Settings R}
    {steps : List (Step R)}
    (hClose :
      Midi.IsClose
        (record settings steps ++ ending settings steps)) :
    Midi.timed ((start settings).session steps).2.finish =
      record settings steps ++ ending settings steps := by
  have hFirst : 0 < 0 + UInt32.size := by decide
  exact (hasSent_session settings steps).stop.timed_eq
    (List.isChain_cons_cons.mpr ⟨hFirst, hClose⟩)

/-
  What it means that a session keeps time. Its events stand at
  the ticks of the record: those of a step behind all ticks
  that have passed before it, the bends of a segment one
  further tick apart. A step that sends nothing changes
  nothing. When the session is finished, the last note pays
  all ticks that have passed; in silence those since the last
  event stay unpaid.
-/
structure KeepsTime
    (settings : Settings R)
    (steps : List (Step R)) : Prop where
  timed_eq :
    ((start settings).session steps).2.timed =
      record settings steps
  timed_concat :
    ∀ before step after,
      steps = before ++ step :: after →
        ((start settings).session
            (before ++ [step])).2.timed =
          ((start settings).session before).2.timed ++
            ((start settings).session before).2.sent
              (passed settings before) step
  unchanged :
    ∀ before step after,
      steps = before ++ step :: after →
        (∀ ticks, step ≠ .advance ticks) →
          ((start settings).session
              (before ++ [step])).2.events =
            ((start settings).session before).2.events →
          ((start settings).session (before ++ [step])).2 =
              ((start settings).session before).2 ∧
            step.ticks settings = 0
  timed_finish :
    Midi.IsClose
        (record settings steps ++ ending settings steps) →
      Midi.timed ((start settings).session steps).2.finish =
        record settings steps ++ ending settings steps
  elapsed_sounding :
    Midi.IsClose
        (record settings steps ++ ending settings steps) →
      ((start settings).session steps).2.sounding ≠ none →
        Midi.elapsed
            ((start settings).session steps).2.finish =
          passed settings steps
  elapsed_silent :
    ((start settings).session steps).2.sounding = none →
      ∃ last ∈ (record settings steps).getLast?,
        Midi.elapsed
              ((start settings).session steps).2.finish +
            (passed settings steps - last.tick) =
          passed settings steps

theorem keepsTime_session
    (settings : Settings R)
    (steps : List (Step R))
    (hClose : Midi.IsClose (record settings steps)) :
    KeepsTime settings steps := by
  have hSent := hasSent_session settings steps
  refine ⟨timed_session hClose, ?_, ?_,
    timed_finish_session, ?_, ?_⟩
  · rintro before step after rfl
    have hSplit :
        before ++ step :: after =
          (before ++ [step]) ++ after := by
      simp
    rw [hSplit] at hClose
    have hBoth := isClose_record_of_append hClose
    rw [timed_session hBoth,
      timed_session (isClose_record_of_append hBoth),
      record_append]
    simp [chronicle]
  · rintro before step after _ hWait hEvents
    have hStep :
        ((start settings).session (before ++ [step])).2 =
          ((start settings).session before).2.attempt
            step := by
      simp [session_eq_run]
    rw [hStep] at hEvents ⊢
    -- The record of the session has not grown by the step.
    have hBefore := hasSent_session settings before
    have hLength :=
      congrArg List.length (hBefore.attempt step).events_eq
    rw [hEvents, hBefore.events_eq, Midi.length_untimedFrom,
      Midi.length_untimedFrom, List.length_append,
      Nat.left_eq_add, List.length_eq_zero_iff] at hLength
    have hNothing := attempt_of_sent_eq_nil hLength hWait
    rwa [settings_session] at hNothing
  · intro hEnding hSounding
    rcases Option.ne_none_iff_exists'.mp hSounding with
      ⟨note, hNote⟩
    rw [Midi.elapsed_eq_lastTick,
      timed_finish_session hEnding,
      Midi.lastTickFrom_append, ending, sent, hNote]
    rfl
  · intro hSilent
    have hElapsed := Midi.elapsed_eq_lastTick
      ((start settings).session steps).2.events.toList
    have hTimed := timed_session hClose
    rw [timed] at hTimed
    rw [hTimed] at hElapsed
    have hSome : (record settings steps).getLast?.isSome := by
      simp [record, opening]
    rcases Option.isSome_iff_exists.mp hSome with ⟨last, hLast⟩
    have hTick := Midi.lastTickFrom_eq_of_getLast? 0 hLast
    have hPassed := hSent.lastTick_le
    rw [hTick] at hElapsed hPassed
    refine ⟨last, hLast, ?_⟩
    simp only [finish, stop, hSilent]
    omega

end Chronicles

/-
  Steps with a long rest, a note that is played again, a
  segment that has no note, one that slides, and a stop in
  silence. A note sounds at their end.
-/
def interlude : List (Step Rat) :=
  [.advance 3, .play 60, .play 60, .advance 4294967295,
    .segment ⟨64, 64, 1, Registry.flat, ⟨1, 3⟩⟩,
    .segment ⟨0, 2, 1, Registry.slide, ⟨1, 8⟩⟩,
    .stop, .stop, .advance 5, .play 62, .advance 7]

theorem keepsTime_session_interlude :
    KeepsTime brisk interlude ∧
      Midi.elapsed
          ((start brisk).session interlude).2.finish =
        4294967312 ∧
      KeepsTime brisk (interlude ++ [.stop, .advance 9]) := by
  have hTime := keepsTime_session brisk interlude
    (by decide +kernel)
  have hLater := keepsTime_session brisk
    (interlude ++ [.stop, .advance 9]) (by decide +kernel)
  have hPassed : passed brisk interlude = 4294967312 := by
    decide +kernel
  refine ⟨hTime, ?_, hLater⟩
  rw [← hPassed]
  exact hTime.elapsed_sounding (by decide +kernel)
    (by decide +kernel)

end Performance

end Carnatic
