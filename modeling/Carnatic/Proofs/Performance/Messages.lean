import Carnatic.Proofs.Performance.Growth

/-
  The messages of a tune.

  Behind its setup a tune sends nothing but notes and bends,
  all on the channel of its settings. A device has every note,
  and each note starts with the velocity of the settings.

  Main declarations:
    * `Performance.Sends`
    * `Performance.PlaysNotes`
    * `Performance.PlaysNotes.segment`
    * `Performance.PlaysNotes.segments`
    * `Performance.exists_sends_of_ofSegments`
-/

------------------------------------------------------------
-- Notes And Bends
------------------------------------------------------------

namespace Carnatic

namespace Performance

variable {R : Type} [Scalar R]

/- The messages that are sent behind the setup. -/
inductive Sends (settings : Settings R) :
    Midi.Message → Prop
| noteOn
    {note : UInt8}
    (hNote : note ≤ 127) :
    Sends settings (.noteOn note settings.velocity)
| noteOff
    {note : UInt8}
    (hNote : note ≤ 127) :
    Sends settings (.noteOff note)
| pitchBend
    (semitones : R) :
    Sends settings (.pitchBend (bendValue semitones))

/- A change between notes of a device sends such notes. -/
theorem sends_changeTo
    {settings : Settings R}
    {note : UInt8}
    {sounding : Option UInt8}
    (hNote : note ≤ 127)
    (hSounding : ∀ old ∈ sounding, old ≤ 127) :
    ∀ message ∈ changeTo settings.velocity note sounding,
      Sends settings message := by
  intro message hMessage
  cases sounding with
  | none =>
      rw [changeTo, List.mem_singleton] at hMessage
      exact hMessage ▸ .noteOn hNote
  | some old =>
      rw [changeTo] at hMessage
      split at hMessage
      · simp at hMessage
      · simp only [List.mem_cons, List.not_mem_nil,
          or_false] at hMessage
        rcases hMessage with rfl | rfl
        · exact .noteOn hNote
        · exact .noteOff (hSounding old rfl)

------------------------------------------------------------
-- What Each Operation Keeps
------------------------------------------------------------

/-
  A performance that has sent the setup of its settings, and
  notes and bends behind it. A device has the note that
  sounds.
-/
structure PlaysNotes
    (settings : Settings R)
    (performance : Performance R) : Prop where
  settings_eq : performance.settings = settings
  sounding_le : ∀ note ∈ performance.sounding, note ≤ 127
  events_eq :
    ∃ later,
      performance.events.toList = setup settings ++ later ∧
        ∀ event ∈ later,
          event.channel = settings.channel ∧
            Sends settings event.message

theorem playsNotes_start (settings : Settings R) :
    PlaysNotes settings (start settings) where
  settings_eq := rfl
  sounding_le := by
    intro note hNote
    cases hNote
  events_eq := ⟨[], rfl, by simp⟩

namespace PlaysNotes

variable {settings : Settings R}
variable {performance reached : Performance R}

theorem emit
    (hPlays : PlaysNotes settings performance)
    {message : Midi.Message}
    (hMessage : Sends settings message) :
    PlaysNotes settings (performance.emit message) where
  settings_eq := hPlays.settings_eq
  sounding_le := hPlays.sounding_le
  events_eq := by
    rcases hPlays.events_eq with ⟨later, hEvents, hLater⟩
    refine ⟨later ++ [⟨performance.gap,
      performance.settings.channel, message⟩], ?_, ?_⟩
    · rw [events_emit, hEvents, List.append_assoc]
    · intro event hEvent
      rcases List.mem_append.mp hEvent with hOld | hNew
      · exact hLater event hOld
      · rw [List.mem_singleton] at hNew
        rw [hNew, hPlays.settings_eq]
        exact ⟨rfl, hMessage⟩

theorem foldl_emit
    (hPlays : PlaysNotes settings performance)
    {messages : List Midi.Message}
    (hMessages :
      ∀ message ∈ messages, Sends settings message) :
    PlaysNotes settings
      (messages.foldl Performance.emit performance) := by
  induction messages generalizing performance with
  | nil => exact hPlays
  | cons message rest ih =>
      rcases List.forall_mem_cons.mp hMessages with
        ⟨hMessage, hRest⟩
      exact ih (hPlays.emit hMessage) hRest

theorem play
    (hPlays : PlaysNotes settings performance)
    {note : UInt8}
    (hNote : note ≤ 127) :
    PlaysNotes settings (performance.play note) := by
  have hChange :
      ∀ message ∈ changeTo performance.settings.velocity note
          performance.sounding,
        Sends settings message := by
    rw [hPlays.settings_eq]
    exact sends_changeTo hNote hPlays.sounding_le
  have hChanged := hPlays.foldl_emit hChange
  rw [play_eq]
  refine ⟨hChanged.settings_eq, ?_, hChanged.events_eq⟩
  intro sounding hSounding
  rw [Option.mem_some_iff] at hSounding
  exact hSounding ▸ hNote

theorem stop
    (hPlays : PlaysNotes settings performance) :
    PlaysNotes settings performance.stop := by
  have hNotes :
      ∀ message ∈ performance.sounding.toList.map
          Midi.Message.noteOff,
        Sends settings message := by
    intro message hMessage
    rcases List.mem_map.mp hMessage with ⟨note, hNote, rfl⟩
    exact .noteOff
      (hPlays.sounding_le note (Option.mem_toList.mp hNote))
  have hStopped := hPlays.foldl_emit hNotes
  rw [stop_eq]
  exact ⟨hStopped.settings_eq, by simp, hStopped.events_eq⟩

/- Following a segment bends once a tick. -/
theorem follow
    (hPlays : PlaysNotes settings performance)
    (segment : Segment R)
    (count : Nat) :
    PlaysNotes settings
      (performance.follow segment count) := by
  induction count with
  | zero => exact hPlays
  | succ count ih =>
      have hBend := ih.emit (.pitchBend
        (bendAt performance.settings segment
          (ticksOf performance.settings segment) count))
      exact ⟨hBend.settings_eq, hBend.sounding_le,
        hBend.events_eq⟩

theorem segment
    (hPlays : PlaysNotes settings performance)
    {segment : Segment R}
    (hSegment : performance.segment segment = .ok reached) :
    PlaysNotes settings reached := by
  rcases segment_eq_ok_iff.mp hSegment with
    ⟨note, hNote, rfl⟩
  rcases noteOf?_eq_some_iff.mp hNote with
    ⟨hLow, hHigh, rfl⟩
  have hNumber := toNat_noteNumber hLow hHigh
  have hDevice :
      noteNumber performance.settings segment ≤ 127 := by
    rw [UInt8.le_iff_toNat_le]
    change _ ≤ 127
    omega
  exact (hPlays.play hDevice).follow segment _

/- Playing segments sends notes and bends only. -/
theorem segments
    (hPlays : PlaysNotes settings performance)
    {tune : List (Segment R)}
    (hTune : performance.segments tune = .ok reached) :
    PlaysNotes settings reached := by
  induction tune generalizing performance with
  | nil =>
      cases hTune
      exact hPlays
  | cons first rest ih =>
      rcases segments_cons_eq_ok_iff.mp hTune with
        ⟨following, hFirst, hRest⟩
      exact ih (hPlays.segment hFirst) hRest

end PlaysNotes

------------------------------------------------------------
-- Whole Tunes
------------------------------------------------------------

/- A tune sends its setup, and notes and bends behind it. -/
theorem exists_sends_of_ofSegments
    {settings : Settings R}
    {tune : List (Segment R)}
    {events : List Midi.Event}
    (hTune : ofSegments settings tune = .ok events) :
    ∃ later,
      events = setup settings ++ later ∧
        ∀ event ∈ later,
          event.channel = settings.channel ∧
            Sends settings event.message := by
  rcases exists_hasPlayed_of_ofSegments hTune with
    ⟨final, hFinal, _, rfl⟩
  exact ((playsNotes_start settings).segments
    hFinal).stop.events_eq

end Performance

end Carnatic
