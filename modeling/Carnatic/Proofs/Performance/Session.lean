import Carnatic.Performance.Session
import Carnatic.Proofs.Performance.Steps
import Carnatic.Proofs.Song.Music

/-
  Sessions with steps that fail.

  An action that fails could leave behind what it has done
  before. The action of a segment looks for its note before it
  does anything, so one that fails has done nothing. A session
  goes on as if such a step had never been asked for.

  Main declarations:
    * `Performance.Action.run_segment`
    * `Performance.fault?` and `Performance.answerTo`
    * `Performance.run_ofStep_eq_attempt`
    * `Performance.session_eq_run`
    * `Performance.session_withoutFaults`
    * `Performance.LeavesNoTrace`
    * `Performance.leavesNoTrace_session`
-/

------------------------------------------------------------
-- Actions In Place
------------------------------------------------------------

namespace Carnatic

namespace Performance

variable {R : Type} [Scalar R]

namespace Action

/- An action goes on with what the one before it has left,
unless that one has failed. -/
omit [Scalar R] in
theorem run_bind
    {α β : Type}
    (action : Action R α)
    (next : α → Action R β)
    (performance : Performance R) :
    (action >>= next).run.run performance =
      match action.run.run performance with
      | (.ok answer, reached) =>
          (next answer).run.run reached
      | (.error error, reached) => (.error error, reached) := by
  simp only [ExceptT.run_bind, StateT.run_bind]
  rcases action.run.run performance with ⟨result, reached⟩
  cases result <;> rfl

/- Actions that do not fail, done one after the other, do not
fail, and change a performance as their changes do. -/
omit [Scalar R] in
theorem run_forM_of_run
    {α : Type}
    {action : α → Action R Unit}
    {change : Performance R → α → Performance R}
    (hRun :
      ∀ item performance,
        (action item).run.run performance =
          (.ok (), change performance item))
    (items : List α)
    (performance : Performance R) :
    (forM items action).run.run performance =
      (.ok (), items.foldl change performance) := by
  induction items generalizing performance with
  | nil => rfl
  | cons item rest ih =>
      rw [List.forM_cons, run_bind, hRun, List.foldl_cons]
      exact ih (change performance item)

/- The action of a segment plays the segment, or it fails and
has done nothing. -/
theorem run_segment
    (performance : Performance R)
    (segment : Segment R) :
    (Action.segment segment).run.run performance =
      match performance.segment segment with
      | .ok reached => (.ok (), reached)
      | .error error => (.error error, performance) := by
  have hGet :
      (get : Action R (Performance R)).run.run performance =
        (.ok performance, performance) := rfl
  rw [Action.segment, run_bind, hGet]
  dsimp only
  cases hNote : noteOf? performance.settings segment with
  | none =>
      simp only [Performance.segment, hNote]
      rfl
  | some note =>
      simp only [Performance.segment, hNote]
      exact run_forM_of_run (fun _ _ => rfl) _
        (performance.play note)

/- The action of a step does the step, or it fails and has done
nothing. -/
theorem run_ofStep
    (performance : Performance R)
    (step : Step R) :
    (ofStep step).run.run performance =
      match performance.step step with
      | .ok reached => (.ok (), reached)
      | .error error => (.error error, performance) := by
  cases step with
  | play note => rfl
  | stop => rfl
  | bend semitones => rfl
  | advance ticks => rfl
  | segment segment => exact run_segment performance segment

end Action

------------------------------------------------------------
-- Faults Of Steps
------------------------------------------------------------

instance (settings : Settings R) (offset : Int) :
    Decidable (settings.HasNote offset) :=
  inferInstanceAs (Decidable (_ ∧ _))

/- The fault of a step, if it fails: it asks for a segment
whose note no device has. -/
def fault?
    (settings : Settings R) : Step R → Option SongError
| .segment segment =>
    if settings.HasNote segment.start then none
    else some (noteError settings segment)
| _ => none

theorem fault?_eq_some_iff
    {settings : Settings R}
    {step : Step R}
    {error : SongError} :
    fault? settings step = some error ↔
      ∃ segment,
        step = .segment segment ∧
          ¬ settings.HasNote segment.start ∧
          error = noteError settings segment := by
  cases step <;> simp [fault?, eq_comm]

/- The answer to a step. -/
def answerTo
    (settings : Settings R)
    (step : Step R) : Except SongError Unit :=
  match fault? settings step with
  | some error => .error error
  | none => .ok ()

theorem answerTo_eq_error_iff
    {settings : Settings R}
    {step : Step R}
    {error : SongError} :
    answerTo settings step = .error error ↔
      fault? settings step = some error := by
  unfold answerTo
  cases fault? settings step <;> simp

/- A step with a fault is passed over. -/
theorem attempt_of_fault?
    {performance : Performance R}
    {step : Step R}
    {error : SongError}
    (hFault : fault? performance.settings step = some error) :
    performance.attempt step = performance := by
  rcases fault?_eq_some_iff.mp hFault with
    ⟨segment, rfl, hNone, _⟩
  rw [attempt_segment, noteOf?_eq_none_iff.mpr hNone]

/- What a step does in place is what an attempt at it does. -/
theorem run_ofStep_eq_attempt
    (performance : Performance R)
    (step : Step R) :
    (Action.ofStep step).run.run performance =
      (answerTo performance.settings step,
        performance.attempt step) := by
  rw [Action.run_ofStep]
  cases step with
  | play note => rfl
  | stop => rfl
  | bend semitones => rfl
  | advance ticks => rfl
  | segment segment =>
      rcases performance.segment_cases segment with
        ⟨hNone, hRead⟩ | ⟨hNote, reached, hRead, _⟩
      · simp [attempt, step, answerTo, fault?, hRead, hNone]
      · simp [attempt, step, answerTo, fault?, hRead, hNote]

------------------------------------------------------------
-- Sessions
------------------------------------------------------------

theorem session_cons
    (performance : Performance R)
    (step : Step R)
    (rest : List (Step R)) :
    performance.session (step :: rest) =
      (⟨answerTo performance.settings step,
          (performance.attempt step).sounding⟩ ::
        ((performance.attempt step).session rest).1,
        ((performance.attempt step).session rest).2) := by
  rw [session, run_ofStep_eq_attempt]

/- A session leads where a run of its steps does. -/
theorem session_eq_run
    (performance : Performance R)
    (steps : List (Step R)) :
    (performance.session steps).2 = performance.run steps := by
  induction steps generalizing performance with
  | nil => rfl
  | cons step rest ih => rw [session_cons, run_cons, ih]

@[simp]
theorem settings_session
    (performance : Performance R)
    (steps : List (Step R)) :
    (performance.session steps).2.settings =
      performance.settings := by
  rw [session_eq_run, settings_run]

/- The reply to a step depends on the steps up to it. -/
theorem getElem?_session
    (performance : Performance R)
    (steps : List (Step R))
    (index : Nat) :
    (performance.session steps).1[index]? =
      steps[index]?.map fun step =>
        ⟨answerTo performance.settings step,
          (performance.run
            (steps.take (index + 1))).sounding⟩ := by
  induction steps generalizing performance index with
  | nil => rfl
  | cons step rest ih =>
      rw [session_cons]
      cases index with
      | zero => rfl
      | succ index => simp [ih]

theorem length_session
    (performance : Performance R)
    (steps : List (Step R)) :
    (performance.session steps).1.length = steps.length := by
  induction steps generalizing performance with
  | nil => rfl
  | cons step rest ih =>
      rw [session_cons, List.length_cons, ih, List.length_cons]

/- The steps that have no fault. -/
def withoutFaults
    (settings : Settings R)
    (steps : List (Step R)) : List (Step R) :=
  steps.filter fun step => (fault? settings step).isNone

/- A session without the steps that have a fault ends with the
same performance, and the other steps have the same
replies. -/
theorem session_withoutFaults
    {settings : Settings R}
    {performance : Performance R}
    (hSettings : performance.settings = settings)
    (steps : List (Step R)) :
    performance.session (withoutFaults settings steps) =
      (((steps.zip (performance.session steps).1).filter
          fun entry => (fault? settings entry.1).isNone).map
            Prod.snd,
        (performance.session steps).2) := by
  induction steps generalizing performance with
  | nil => rfl
  | cons step rest ih =>
      have hRest := ih
        ((settings_attempt performance step).trans hSettings)
      rw [session_cons performance step rest]
      cases hFault : fault? settings step with
      | none =>
          have hKept :
              withoutFaults settings (step :: rest) =
                step :: withoutFaults settings rest := by
            simp [withoutFaults, hFault]
          rw [hKept, session_cons, hRest]
          simp [hFault]
      | some error =>
          have hKept :
              withoutFaults settings (step :: rest) =
                withoutFaults settings rest := by
            simp [withoutFaults, hFault]
          rw [← hSettings] at hFault
          rw [attempt_of_fault? hFault] at hRest ⊢
          rw [hKept, hRest]
          simp [← hSettings, hFault]

------------------------------------------------------------
-- No Trace Of Failures
------------------------------------------------------------

/-
  What it means that failing leaves no trace. Wherever a
  session stands, a segment whose note no device has is
  answered with an error at the segment's place, and the
  performance is left as it is: its events, its pending ticks
  and the note that sounds. Nothing else fails. Without the
  steps that fail, the session has the same replies to the
  other steps and ends with the same events. A tune is played
  without events exactly when some segment of it has no note,
  and the first one of these is the error.
-/
structure LeavesNoTrace
    (settings : Settings R)
    (steps : List (Step R))
    (tune : List (Segment R)) : Prop where
  unchanged :
    ∀ before segment after,
      steps = before ++ .segment segment :: after →
        ¬ settings.HasNote segment.start →
          ∃ error : SongError,
            error.stage = .music ∧
              error.cause =
                .noteOutOfRange
                  (settings.shruti.toNat + segment.start) ∧
              error.position = segment.position ∧
              (Action.segment segment).run.run
                  ((start settings).session before).2 =
                (.error error,
                  ((start settings).session before).2)
  length_eq :
    ((start settings).session steps).1.length = steps.length
  error_iff :
    ∀ (index : Nat) (step : Step R) (reply : Reply)
        (error : SongError),
      steps[index]? = some step →
        ((start settings).session steps).1[index]? =
            some reply →
          (reply.result = .error error ↔
            ∃ segment,
              step = .segment segment ∧
                ¬ settings.HasNote segment.start ∧
                error = noteError settings segment)
  replies_eq :
    ((start settings).session
        (withoutFaults settings steps)).1 =
      ((steps.zip ((start settings).session steps).1).filter
        fun entry => (fault? settings entry.1).isNone).map
          Prod.snd
  last_eq :
    ((start settings).session
        (withoutFaults settings steps)).2 =
      ((start settings).session steps).2
  finish_eq :
    ((start settings).session
        (withoutFaults settings steps)).2.finish =
      ((start settings).session steps).2.finish
  tune_fails_iff :
    (∀ events, ofSegments settings tune ≠ .ok events) ↔
      ∃ segment ∈ tune, ¬ settings.HasNote segment.start
  tune_error_iff :
    ∀ error : SongError,
      ofSegments settings tune = .error error ↔
        ∃ segment,
          IsFirstWithout
              (fun other : Segment R =>
                settings.HasNote other.start)
              tune segment ∧
            error = noteError settings segment

/- A tune has no events exactly when a segment has no note. -/
theorem ofSegments_ne_ok_iff
    {settings : Settings R}
    {tune : List (Segment R)} :
    (∀ events, ofSegments settings tune ≠ .ok events) ↔
      ∃ segment ∈ tune,
        ¬ settings.HasNote segment.start := by
  constructor
  · intro hNone
    cases hTune : ofSegments settings tune with
    | ok events => exact absurd hTune (hNone events)
    | error error =>
        rcases ofSegments_eq_error_iff.mp hTune with
          ⟨segment, hFirst, _⟩
        exact ⟨segment, hFirst.mem, hFirst.not_property⟩
  · rintro ⟨segment, hSegment, hNote⟩ events hEvents
    have hSome :
        ¬ ∀ other ∈ tune, settings.HasNote other.start :=
      fun hAll => hNote (hAll segment hSegment)
    rcases exists_isFirstWithout hSome with ⟨first, hFirst⟩
    have hError :=
      ofSegments_eq_error_iff.mpr ⟨first, hFirst, rfl⟩
    rw [hEvents] at hError
    cases hError

/- No step that fails leaves a trace, in any session, and no
tune that fails leaves events. -/
theorem leavesNoTrace_session
    (settings : Settings R)
    (steps : List (Step R))
    (tune : List (Segment R)) :
    LeavesNoTrace settings steps tune := by
  have hStart : (start settings).settings = settings := rfl
  have hWithout := session_withoutFaults hStart steps
  refine ⟨?_, length_session _ _, ?_, by rw [hWithout],
    by rw [hWithout], by rw [hWithout],
    ofSegments_ne_ok_iff, fun _ => ofSegments_eq_error_iff⟩
  · rintro before segment after _ hNone
    have hSettings :
        ((start settings).session before).2.settings =
          settings := by
      rw [settings_session, hStart]
    have hFault :
        fault? ((start settings).session before).2.settings
            (.segment segment) =
          some (noteError settings segment) := by
      rw [hSettings]
      exact fault?_eq_some_iff.mpr
        ⟨segment, rfl, hNone, rfl⟩
    refine ⟨noteError settings segment, rfl, rfl, rfl, ?_⟩
    have hRun := run_ofStep_eq_attempt
      ((start settings).session before).2 (.segment segment)
    rwa [attempt_of_fault? hFault,
      answerTo_eq_error_iff.mpr hFault] at hRun
  · intro index step reply error hStep hReply
    rw [getElem?_session, hStep, Option.map_some,
      Option.some.injEq] at hReply
    rw [← hReply]
    exact answerTo_eq_error_iff.trans fault?_eq_some_iff

end Performance

end Carnatic
