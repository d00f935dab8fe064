import Carnatic.Proofs.Midi.Size
import Carnatic.Proofs.Performance.Messages
import Carnatic.Proofs.Rendition.Tune
import Carnatic.Proofs.Settings.Validity

/-
  The sizes of rendered files.

  No event of a rendition waits for more than one tick, so
  each takes four bytes, but for the change of the program,
  which takes three. The track of a file has four bytes for
  each event, then, and three more, and its length is stated
  as long as there are fewer than 2 ^ 30 events. Nothing
  keeps a tune below that: every tick of it has an event.

  Main declarations:
    * `Performance.length_trackData_of_ofSegments`
    * `Performance.length_bounds_of_ofSegments`
    * `Rendition.HasSizedTrack`
    * `Rendition.hasSizedTrack_of_ofText`
    * `Rendition.not_statesLength_vast`
-/

------------------------------------------------------------
-- Bytes Of Events
------------------------------------------------------------

namespace Carnatic

namespace Performance

variable {R : Type}

theorem sum_size_setup (settings : Settings R) :
    ((setup settings).map Midi.Event.size).sum = 27 := by
  simp [setup, bendRangeSetup, Midi.Event.size,
    Midi.Message.size]

variable [Scalar R]
variable {settings : Settings R}
variable {tune : List (Segment R)}
variable {events : List Midi.Event}

/- Notes and bends take three bytes. -/
theorem Sends.size_eq
    {message : Midi.Message}
    (hSends : Sends settings message) :
    message.size = 3 := by
  cases hSends <;> rfl

/- No event of a tune waits for more than one tick. -/
theorem delta_le_of_ofSegments
    (hTune : ofSegments settings tune = .ok events) :
    ∀ event ∈ events, event.delta.toNat ≤ 1 := by
  rcases exists_hasPlayed_of_ofSegments hTune with
    ⟨final, _, hPlayed, rfl⟩
  intro event hEvent
  exact UInt32.le_iff_toNat_le.mp
    (hPlayed.steady.stop.delta_le event hEvent)

/- Behind the setup, every event takes four bytes. -/
theorem length_trackData_of_ofSegments
    (hTune : ofSegments settings tune = .ok events) :
    (Midi.trackData events).length =
      4 * events.length + 3 := by
  have hDelta := delta_le_of_ofSegments hTune
  rcases exists_sends_of_ofSegments hTune with
    ⟨later, rfl, hLater⟩
  have hSize :
      ∀ size ∈ later.map Midi.Event.size, size = 4 := by
    intro size hMember
    rcases List.mem_map.mp hMember with ⟨event, hEvent, rfl⟩
    have hShort : event.delta.toNat < 128 :=
      (hDelta event (List.mem_append_right _ hEvent)).trans_lt
        (by decide)
    rw [Midi.Event.size, Nat.log_of_lt hShort,
      (hLater event hEvent).2.size_eq]
  have hSetup : (setup settings).length = 7 := rfl
  rw [Midi.length_trackData, List.map_append,
    List.sum_append, sum_size_setup,
    List.eq_replicate_of_mem hSize,
    List.sum_replicate_nat, List.length_map,
    List.length_append, hSetup]
  omega

------------------------------------------------------------
-- Numbers Of Events
------------------------------------------------------------

/- A change of notes takes two messages at most. -/
theorem length_changeTo_le
    (velocity note : UInt8)
    (sounding : Option UInt8) :
    (changeTo velocity note sounding).length ≤ 2 := by
  unfold changeTo
  split
  · simp
  · split <;> simp

/- A segment has an event for each of its ticks, behind a
change of notes. -/
theorem length_passage
    (settings : Settings R)
    (before : List (Segment R))
    (segment : Segment R) :
    (passage settings before segment).length =
      (changeTo settings.velocity (noteNumber settings segment)
          (before.getLast?.map
            (noteNumber settings))).length +
        ticksOf settings segment := by
  simp [passage]

/- The first segment starts a note, and each later one may
change it. -/
theorem length_passages_bounds
    (settings : Settings R)
    (hTune : tune ≠ []) :
    lengthOf settings tune + 1 ≤
        (passages settings tune).length ∧
      (passages settings tune).length + 1 ≤
        lengthOf settings tune + 2 * tune.length := by
  induction tune using List.reverseRecOn with
  | nil => exact absurd rfl hTune
  | append_singleton before segment ih =>
      have hPassage := length_passage settings before segment
      simp only [passages_concat, List.length_append,
        lengthOf_append, lengthOf_singleton,
        List.length_singleton]
      by_cases hBefore : before = []
      · subst hBefore
        have hStart :
            (passage settings [] segment).length =
              1 + ticksOf settings segment := hPassage
        have hNone : passages settings [] = [] := rfl
        have hNothing : lengthOf settings [] = 0 := rfl
        rw [hNone, hStart, hNothing, List.length_nil]
        omega
      · have hEarlier := ih hBefore
        have hChange := length_changeTo_le settings.velocity
          (noteNumber settings segment)
          (before.getLast?.map (noteNumber settings))
        omega

/- A tune with segments has an event for each tick and the
seven of its setup, and for each segment two events at most to
change the note; there is a note that starts and stops. -/
theorem length_bounds_of_ofSegments
    (hTune : ofSegments settings tune = .ok events)
    (hSegments : tune ≠ []) :
    lengthOf settings tune + 9 ≤ events.length ∧
      events.length ≤
        lengthOf settings tune + 2 * tune.length + 7 := by
  rcases exists_hasPlayed_of_ofSegments hTune with
    ⟨final, _, hPlayed, rfl⟩
  have hPassages :=
    length_passages_bounds settings hSegments
  have hOpening : (opening settings).length = 7 := rfl
  have hClosing : (closing settings tune).length = 1 := by
    rw [closing, List.getLast?_eq_getLast_of_ne_nil hSegments]
    rfl
  have hSchedule := congrArg List.length hPlayed.timed_finish
  rw [Midi.timed, Midi.length_timedFrom, schedule,
    List.length_append, List.length_append, hOpening,
    hClosing] at hSchedule
  omega

end Performance

------------------------------------------------------------
-- Files Of Renditions
------------------------------------------------------------

namespace Rendition

/-
  A rendition's file has one track. Its size follows from the
  number of events, and it is the stated length if and only if
  there are fewer of these than 2 ^ 30.
-/
structure HasSizedTrack
    (rendition : Rendition)
    (ticksPerBeat : UInt16) : Prop where
  hasOneTrack :
    Midi.HasOneTrack ticksPerBeat
      (rendition.file ticksPerBeat).bytes
  length_eq :
    (rendition.file ticksPerBeat).bytes.length =
      4 * rendition.events.length + 25
  statedLength_eq :
    Midi.statedLength (rendition.file ticksPerBeat).bytes =
      (4 * rendition.events.length + 3) % 2 ^ 32
  statesLength_iff :
    Midi.StatesLength (rendition.file ticksPerBeat).bytes ↔
      rendition.events.length < 2 ^ 30

variable {R : Type} [Scalar R]

theorem hasSizedTrack_of_ofSegments
    {settings : Settings R}
    {tune : List (Segment R)}
    {rendition : Rendition}
    (hTune :
      Performance.ofSegments settings tune =
        .ok rendition.events)
    (ticksPerBeat : UInt16) :
    rendition.HasSizedTrack ticksPerBeat := by
  have hSize :=
    Performance.length_trackData_of_ofSegments hTune
  refine ⟨Midi.File.hasOneTrack _ _, ?_, ?_, ?_⟩
  · rw [file, Midi.File.bytes_singleton, List.length_append,
      List.length_append, Midi.length_frontOf,
      Midi.length_bigEndian, hSize]
    omega
  · rw [file, Midi.File.statedLength_bytes_singleton, hSize]
  · rw [file, Midi.File.statesLength_iff, hSize]
    omega

/- Every text that renders, with whatever settings, has a file
with one track of such a size. -/
theorem hasSizedTrack_of_ofText
    {settings : Settings R}
    {registry : Registry R}
    {text : String}
    {rendition : Rendition}
    (hText : ofText settings registry text = .ok rendition)
    (ticksPerBeat : UInt16) :
    rendition.HasSizedTrack ticksPerBeat := by
  rcases ofText_eq_ok_iff.mp hText with ⟨tune, _, hTune, _⟩
  exact hasSizedTrack_of_ofSegments hTune ticksPerBeat

theorem hasSizedTrack_brisk :
    ∃ rendition,
      ofText Performance.brisk Registry.builtin
          "\x7b sa ri1 \x7d \x7b :/ : \x7d" =
        .ok rendition ∧
      rendition.HasSizedTrack 480 ∧
      (rendition.file 480).bytes.length = 85 := by
  have hLength :
      (ofText Performance.brisk Registry.builtin
          "\x7b sa ri1 \x7d \x7b :/ : \x7d").map
            (fun rendition => rendition.events.length) =
        .ok 15 := by
    decide +kernel
  rcases exists_eq_ok_of_map_eq_ok hLength with
    ⟨rendition, hText, hEvents⟩
  have hSized := hasSizedTrack_of_ofText hText 480
  refine ⟨rendition, hText, hSized, ?_⟩
  rw [hSized.length_eq, hEvents]

------------------------------------------------------------
-- Tracks That Are Too Long
------------------------------------------------------------

/- Settings with so many ticks a unit that a song of one
svara has 2 ^ 30 events. -/
def vast : Settings Float :=
  { Settings.standard with ticksPerUnit := 1073741815 }

/- The settings are valid and the song renders, but the field
in its file cannot hold the length of the track. -/
theorem not_statesLength_vast :
    vast.violation? = none ∧
      ∃ rendition,
        ofText vast Registry.builtin
            "\x7b sa \x7d \x7b : \x7d" =
          .ok rendition ∧
        let bytes := (rendition.file vast.ticksPerBeat).bytes
        ¬ Midi.StatesLength bytes ∧
          Midi.statedLength bytes = 3 ∧
          bytes.length = 22 + 4294967299 := by
  have hOk :
      (ofText vast Registry.builtin
        "\x7b sa \x7d \x7b : \x7d").isOk = true := by
    decide +kernel
  have hDurations :
      (Segment.ofText (Registry.builtin : Registry Float)
          "\x7b sa \x7d \x7b : \x7d").map
            (List.map Segment.duration) =
        .ok [1] := by
    decide +kernel
  rcases exists_eq_ok_of_isOk hOk with ⟨rendition, hText⟩
  rcases ofText_eq_ok_iff.mp hText with
    ⟨tune, hTune, hEvents, _⟩
  rw [hTune] at hDurations
  rcases List.map_eq_singleton_iff.mp
      (Except.ok.inj hDurations) with
    ⟨segment, rfl, hDuration⟩
  have hTicks :
      Performance.lengthOf vast [segment] = 1073741815 := by
    rw [Performance.lengthOf_singleton,
      Performance.ticksOf, hDuration]
    rfl
  have hBounds :=
    Performance.length_bounds_of_ofSegments hEvents (by simp)
  have hCount : rendition.events.length = 2 ^ 30 := by
    rw [hTicks, List.length_singleton] at hBounds
    omega
  have hSized :=
    hasSizedTrack_of_ofSegments hEvents vast.ticksPerBeat
  refine ⟨rfl, rendition, hText, ?_, ?_, ?_⟩
  · rw [hSized.statesLength_iff, hCount]
    exact Nat.lt_irrefl _
  · rw [hSized.statedLength_eq, hCount]
    norm_num
  · rw [hSized.length_eq, hCount]
    norm_num

end Rendition

end Carnatic
