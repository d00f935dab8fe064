import Carnatic.Proofs.Midi.Voice
import Carnatic.Proofs.Performance.Session

/-
  The voice of a performance.

  Whatever a performance is asked to do, in whatever order,
  its events are a stream with a single voice, and the note
  that it takes for the sounding one is the one that sounds.

  Main declarations:
    * `Performance.HasVoice`
    * `Performance.hasVoice_session`
    * `Performance.soundsOneNote_session`
-/

------------------------------------------------------------
-- What Each Operation Keeps
------------------------------------------------------------

namespace Carnatic

namespace Performance

variable {R : Type}

/- The events so far have a single voice, at whose end stands
the sounding note. -/
def HasVoice (performance : Performance R) : Prop :=
  Midi.SingleVoice performance.events.toList
    performance.sounding

namespace HasVoice

variable {performance : Performance R}

theorem emit
    (hVoice : performance.HasVoice)
    {message : Midi.Message}
    (hNeutral : message.isNeutral = true) :
    (performance.emit message).HasVoice := by
  unfold HasVoice
  rw [events_emit]
  exact hVoice.neutral hNeutral

theorem foldl_emit
    (hVoice : performance.HasVoice)
    {messages : List Midi.Message}
    (hNeutral :
      ∀ message ∈ messages, message.isNeutral = true) :
    (messages.foldl Performance.emit
      performance).HasVoice := by
  induction messages generalizing performance with
  | nil => exact hVoice
  | cons message rest ih =>
      rcases List.forall_mem_cons.mp hNeutral with
        ⟨hMessage, hRest⟩
      exact ih (hVoice.emit hMessage) hRest

/- A note starts in silence or takes over from the one that
sounds; one that sounds already is let be. -/
theorem play
    (hVoice : performance.HasVoice)
    (note : UInt8) :
    (performance.play note).HasVoice := by
  unfold HasVoice at hVoice
  cases hSounding : performance.sounding with
  | none =>
      rw [hSounding] at hVoice
      have hStarted :
          Midi.SingleVoice
            (performance.events.toList ++
              [⟨performance.gap,
                performance.settings.channel,
                .noteOn note
                  performance.settings.velocity⟩])
            (some note) :=
        hVoice.start rfl
      simpa [Performance.play, HasVoice, hSounding]
        using hStarted
  | some old =>
      by_cases hSame : old = note
      · simpa [Performance.play, HasVoice, hSounding, hSame]
          using hVoice
      · rw [hSounding] at hVoice
        have hOver :
            Midi.SingleVoice
              (performance.events.toList ++
                [⟨performance.gap,
                  performance.settings.channel,
                  .noteOn note
                    performance.settings.velocity⟩] ++
                [⟨0, performance.settings.channel,
                  .noteOff old⟩])
              (some note) :=
          hVoice.takeOver (Ne.symm hSame) rfl rfl rfl
        simpa [Performance.play, HasVoice, hSounding, hSame]
          using hOver

/- The note that sounds stops; in silence nothing does. -/
theorem stop
    (hVoice : performance.HasVoice) :
    performance.stop.HasVoice := by
  unfold HasVoice at hVoice
  cases hSounding : performance.sounding with
  | none =>
      simpa [Performance.stop, HasVoice, hSounding]
        using hVoice
  | some note =>
      rw [hSounding] at hVoice
      have hStopped :
          Midi.SingleVoice
            (performance.events.toList ++
              [⟨performance.gap,
                performance.settings.channel,
                .noteOff note⟩])
            none :=
        hVoice.stop rfl
      simpa [Performance.stop, HasVoice, hSounding]
        using hStopped

end HasVoice

/- The setup of a performance touches no note. -/
theorem hasVoice_start (settings : Settings R) :
    (start settings).HasVoice := by
  have hSilence :
      HasVoice (⟨settings, 0, none, #[]⟩ : Performance R) :=
    Midi.SingleVoice.silence
  have hSetup :
      ∀ message ∈ bendRangeSetup,
        message.isNeutral = true := by
    decide
  exact hSilence.foldl_emit
    (List.forall_mem_cons.mpr ⟨rfl, hSetup⟩)

------------------------------------------------------------
-- Sessions
------------------------------------------------------------

section Sessions

variable [Scalar R]

/- One step keeps the single voice. -/
theorem HasVoice.attempt
    {performance : Performance R}
    (hVoice : performance.HasVoice)
    (step : Step R) :
    (performance.attempt step).HasVoice := by
  apply attempt_of_kept HasVoice
  · intro reached note hReached
    exact hReached.play note
  · intro reached hReached
    exact hReached.stop
  · intro reached semitones hReached
    exact hReached.emit rfl
  · intro reached ticks hReached
    exact hReached
  · exact hVoice

/- So does a whole session, in which steps may fail. -/
theorem hasVoice_session
    (settings : Settings R)
    (steps : List (Step R)) :
    ((start settings).session steps).2.HasVoice := by
  rw [session_eq_run]
  apply run_of_kept HasVoice
  · intro performance step hVoice
    exact hVoice.attempt step
  · exact hasVoice_start settings

/-
  A session sounds one note at a time, whatever its steps are
  and whichever of them fail. Behind it, exactly the note that
  the performance takes for the sounding one sounds. No note
  starts while it sounds or stops while it is silent, and two
  notes sound together only until the very next event, which
  stops the old one at once. When the performance is finished
  no note sounds, and every note has stopped as often as it
  has started.
-/
theorem soundsOneNote_session
    (settings : Settings R)
    (steps : List (Step R)) :
    Midi.held
          ((start settings).session steps).2.events.toList =
        ((start settings).session
          steps).2.sounding.toFinset ∧
      Midi.IsMonophonic
        ((start settings).session steps).2.events.toList ∧
      Midi.IsMonophonic
        ((start settings).session steps).2.finish ∧
      Midi.held ((start settings).session steps).2.finish =
        ∅ ∧
      ∀ note,
        ((start settings).session steps).2.finish.countP
            (fun event => event.message.starts note) =
          ((start settings).session steps).2.finish.countP
            (fun event => event.message.stops note) := by
  have hVoice := hasVoice_session settings steps
  have hSilent :
      Midi.SingleVoice
        ((start settings).session steps).2.finish none := by
    have hStop := hVoice.stop
    have hNone :
        ((start settings).session
          steps).2.stop.sounding = none := by
      rw [stop_eq]
    rw [HasVoice, hNone] at hStop
    exact hStop
  refine ⟨hVoice.held_eq, hVoice.isMonophonic,
    hSilent.isMonophonic, ?_, ?_⟩
  · rw [hSilent.held_eq, Option.toFinset_none]
  · intro note
    have hCount := hSilent.countP_starts note
    simpa using hCount

end Sessions

end Performance

end Carnatic
