import Carnatic.Proofs.Performance.Clock

/-
  Runs of a performance.

  A run does steps one after the other and passes over those
  that fail. Every step plays and stops notes, bends, and lets
  time pass, and nothing else: what these four keep, every run
  keeps.

  Main declarations:
    * `Performance.attempt` and `Performance.run`
    * `Performance.attempt_segment`
    * `Performance.attempt_of_kept`
    * `Performance.run_of_kept`
-/

------------------------------------------------------------
-- Runs
------------------------------------------------------------

namespace Carnatic

namespace Performance

variable {R : Type} [Scalar R]

/- Do a step where that succeeds; where it fails, go on as
before. -/
def attempt
    (performance : Performance R)
    (step : Step R) : Performance R :=
  match performance.step step with
  | .ok reached => reached
  | .error _ => performance

/- Attempt steps one after the other. -/
def run
    (performance : Performance R)
    (steps : List (Step R)) : Performance R :=
  steps.foldl attempt performance

@[simp]
theorem run_nil (performance : Performance R) :
    performance.run [] = performance :=
  rfl

@[simp]
theorem run_cons
    (performance : Performance R)
    (step : Step R)
    (rest : List (Step R)) :
    performance.run (step :: rest) =
      (performance.attempt step).run rest :=
  rfl

@[simp]
theorem run_append
    (performance : Performance R)
    (first second : List (Step R)) :
    performance.run (first ++ second) =
      (performance.run first).run second :=
  List.foldl_append

/- A segment without a note is passed over; any other one
plays its note and is followed to its end. -/
theorem attempt_segment
    (performance : Performance R)
    (segment : Segment R) :
    performance.attempt (.segment segment) =
      match noteOf? performance.settings segment with
      | none => performance
      | some note =>
          (performance.play note).follow segment
            (ticksOf performance.settings segment) := by
  cases hNote : noteOf? performance.settings segment with
  | none => simp [attempt, step, Performance.segment, hNote]
  | some note =>
      have hSegment :=
        segment_eq_ok_iff.mpr ⟨note, hNote, rfl⟩
      simp [attempt, step, hSegment]

------------------------------------------------------------
-- What A Run Keeps
------------------------------------------------------------

section Kept

variable (kept : Performance R → Prop)

/- What bends and the passing of time keep, following a
segment keeps. -/
theorem follow_of_kept
    (hBend :
      ∀ performance semitones,
        kept performance → kept (performance.bend semitones))
    (hAdvance :
      ∀ performance ticks,
        kept performance → kept (performance.advance ticks))
    {performance : Performance R}
    (hKept : kept performance)
    (segment : Segment R)
    (count : Nat) :
    kept (performance.follow segment count) := by
  induction count with
  | zero => exact hKept
  | succ count ih => exact hAdvance _ _ (hBend _ _ ih)

/- What notes, bends and the passing of time keep, every step
keeps. -/
theorem attempt_of_kept
    (hPlay :
      ∀ performance note,
        kept performance → kept (performance.play note))
    (hStop :
      ∀ performance, kept performance → kept performance.stop)
    (hBend :
      ∀ performance semitones,
        kept performance → kept (performance.bend semitones))
    (hAdvance :
      ∀ performance ticks,
        kept performance → kept (performance.advance ticks))
    {performance : Performance R}
    (hKept : kept performance)
    (step : Step R) :
    kept (performance.attempt step) := by
  cases step with
  | play note => exact hPlay performance note hKept
  | stop => exact hStop performance hKept
  | bend semitones => exact hBend performance semitones hKept
  | advance ticks => exact hAdvance performance ticks hKept
  | segment segment =>
      rw [attempt_segment]
      cases noteOf? performance.settings segment with
      | none => exact hKept
      | some note =>
          exact follow_of_kept kept hBend hAdvance
            (hPlay performance note hKept) segment _

/- What every step keeps, a run keeps. -/
theorem run_of_kept
    (hAttempt :
      ∀ performance step,
        kept performance → kept (performance.attempt step))
    {performance : Performance R}
    (hKept : kept performance)
    (steps : List (Step R)) :
    kept (performance.run steps) := by
  induction steps generalizing performance with
  | nil => exact hKept
  | cons step rest ih =>
      exact ih (hAttempt performance step hKept)

end Kept

/- No step changes the settings. -/
@[simp]
theorem settings_attempt
    (performance : Performance R)
    (step : Step R) :
    (performance.attempt step).settings =
      performance.settings := by
  apply attempt_of_kept
    (fun reached =>
      reached.settings = performance.settings)
  · intro reached note hSame
    rw [settings_play, hSame]
  · intro reached hSame
    rw [stop_eq]
    exact (settings_foldl_emit reached _).trans hSame
  · intro reached semitones hSame
    exact hSame
  · intro reached ticks hSame
    exact hSame
  · rfl

@[simp]
theorem settings_run
    (performance : Performance R)
    (steps : List (Step R)) :
    (performance.run steps).settings =
      performance.settings := by
  apply run_of_kept
    (fun reached =>
      reached.settings = performance.settings)
  · intro reached step hSame
    rw [settings_attempt, hSame]
  · rfl

end Performance

end Carnatic
