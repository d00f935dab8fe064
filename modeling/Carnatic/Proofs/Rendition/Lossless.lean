import Carnatic.Files.Tree
import Carnatic.Proofs.Midi.Plain
import Carnatic.Proofs.Performance.Messages
import Carnatic.Proofs.Rendition.Tune
import Carnatic.Proofs.Settings.Loading

/-
  Renditions that lose nothing in a file.

  A writer cuts fields that are too large, and says nothing
  about it. With valid settings there is nothing to cut: the
  setup takes its fields from the settings, a device has every
  note, each note is heard, and bends stop at the ends of the
  wheel. Settings are valid wherever they come from, so a file
  reads as the events that were rendered.

  Main declarations:
    * `Performance.isWhole_setup`
    * `Performance.Sends.isWhole`
    * `Performance.isWhole_of_ofSegments`
    * `Rendition.IsLossless`
    * `Rendition.isLossless_of_isObtained`
-/

------------------------------------------------------------
-- Whole Events
------------------------------------------------------------

namespace Carnatic

namespace Performance

variable {R : Type}
variable {settings : Settings R}

theorem isWhole_setup
    (hValid : settings.IsValid) :
    ∀ event ∈ setup settings, event.IsWhole := by
  have hReach :
      ∀ message ∈ bendRangeSetup,
        message.InRange ∧ message.IsAudible := by
    simp +decide [bendRangeSetup, Midi.Message.InRange,
      Midi.Message.IsAudible]
  intro event hEvent
  rcases List.mem_map.mp hEvent with ⟨message, hMessage, rfl⟩
  rcases List.mem_cons.mp hMessage with rfl | hReachMessage
  · exact ⟨⟨hValid.channel_le, hValid.program_le⟩, trivial⟩
  · rcases hReach message hReachMessage with
      ⟨hInRange, hAudible⟩
    exact ⟨⟨hValid.channel_le, hInRange⟩, hAudible⟩

variable [Scalar R]

/- The wheel stops at its ends. -/
theorem inRange_bendValue (semitones : R) :
    (Midi.Message.pitchBend (bendValue semitones)).InRange :=
  ⟨le_max_left _ _,
    max_le (by decide) (min_le_right _ _)⟩

/- Valid settings make every note heard. -/
theorem Sends.isWhole
    (hValid : settings.IsValid)
    {event : Midi.Event}
    (hChannel : event.channel = settings.channel)
    (hSends : Sends settings event.message) :
    event.IsWhole := by
  rcases event with ⟨delta, channel, message⟩
  subst hChannel
  cases hSends with
  | noteOn hNote =>
      exact ⟨⟨hValid.channel_le, hNote, hValid.velocity_le⟩,
        hValid.velocity_ge⟩
  | noteOff hNote =>
      exact ⟨⟨hValid.channel_le, hNote⟩, trivial⟩
  | pitchBend semitones =>
      exact ⟨⟨hValid.channel_le, inRange_bendValue semitones⟩,
        trivial⟩

/- A tune with valid settings has whole events. -/
theorem isWhole_of_ofSegments
    (hValid : settings.IsValid)
    {tune : List (Segment R)}
    {events : List Midi.Event}
    (hTune : ofSegments settings tune = .ok events) :
    ∀ event ∈ events, event.IsWhole := by
  rcases exists_sends_of_ofSegments hTune with
    ⟨later, rfl, hLater⟩
  intro event hEvent
  rcases List.mem_append.mp hEvent with hSetup | hBehind
  · exact isWhole_setup hValid event hSetup
  · rcases hLater event hBehind with ⟨hChannel, hSends⟩
    exact hSends.isWhole hValid hChannel

end Performance

------------------------------------------------------------
-- Lossless Files
------------------------------------------------------------

namespace Rendition

/-
  Nothing of a rendition is lost in a file. Its fields are in
  range, so that they are written as they are, with data bytes
  of seven bits. What is written as a note that starts does
  start one. A track whose length fits its field reads as the
  events that were rendered.
-/
structure IsLossless (rendition : Rendition) : Prop where
  isWhole : ∀ event ∈ rendition.events, event.IsWhole
  encode_eq :
    ∀ event ∈ rendition.events,
      event.message.encode event.channel =
        event.message.plain event.channel
  data_lt :
    ∀ event ∈ rendition.events,
      ∀ byte ∈ (event.message.encode event.channel).tail,
        byte < 0x80
  velocity_ne :
    ∀ event ∈ rendition.events,
      ∀ status note velocity,
        event.message.encode event.channel =
            [status, note, velocity] →
          status.toNat / 16 = 0x9 →
            velocity ≠ 0
  read_eq :
    ∀ ticksPerBeat,
      (Midi.trackData rendition.events).length < 2 ^ 32 →
        Midi.readFile? (rendition.file ticksPerBeat).bytes =
          some
            (⟨1, 1, ticksPerBeat.toNat, [rendition.events]⟩,
              [])

variable {rendition : Rendition}

/- A file of whole events reads as these. -/
theorem readFile?_file
    (hWhole : ∀ event ∈ rendition.events, event.IsWhole)
    (ticksPerBeat : UInt16)
    (hSize :
      (Midi.trackData rendition.events).length < 2 ^ 32) :
    Midi.readFile? (rendition.file ticksPerBeat).bytes =
      some
        (⟨1, 1, ticksPerBeat.toNat, [rendition.events]⟩,
          []) := by
  have hFits : (rendition.file ticksPerBeat).Fits :=
    { count_le := Nat.one_le_ofNat
      size_lt := List.forall_mem_singleton.mpr hSize }
  have hInRange : (rendition.file ticksPerBeat).InRange :=
    List.forall_mem_singleton.mpr fun event hEvent =>
      (hWhole event hEvent).1
  exact Midi.File.readFile?_bytes_of_inRange hFits hInRange

/- Whole events lose nothing. -/
theorem isLossless_of_isWhole
    (hWhole : ∀ event ∈ rendition.events, event.IsWhole) :
    rendition.IsLossless where
  isWhole := hWhole
  encode_eq := by
    intro event hEvent
    have hInRange := (hWhole event hEvent).1
    exact Midi.Message.encode_eq_plain hInRange.1 hInRange.2
  data_lt := fun _ _ _ => Midi.Message.lt_of_mem_tail_encode
  velocity_ne := by
    intro event hEvent status note velocity hBytes hStarts
    rcases hWhole event hEvent with ⟨hInRange, hAudible⟩
    exact Midi.Message.velocity_ne_zero_of_encode hInRange.2
      hAudible hBytes hStarts
  read_eq := readFile?_file hWhole

/- Wherever settings come from, no file of a rendition with
them loses anything. -/
theorem isLossless_of_isObtained
    {World : Type}
    {reader : Settings.Reader}
    {files : FileAccess (StateM World)}
    {world : World}
    {settings : Settings Float}
    {registry : Registry Float}
    {text : String}
    (hObtained : settings.IsObtained reader files world)
    (hText : ofText settings registry text = .ok rendition) :
    rendition.IsLossless := by
  rcases ofText_eq_ok_iff.mp hText with
    ⟨tune, _, hTune, _⟩
  exact isLossless_of_isWhole
    (Performance.isWhole_of_ofSegments hObtained.isValid
      hTune)

/- The standard settings with another shruti. -/
def tenor : Settings Float :=
  { Settings.standard with shruti := 62 }

/- A reader that knows one text, which sets the shruti. -/
def tenorReader : Settings.Reader where
  read text :=
    if text = "shruti: 62" then
      .ok tenor
    else
      .error "another text"

theorem isLossless_tenor :
    ∃ rendition,
      tenor.IsObtained tenorReader FileTree.access
          (FileTree.empty []) ∧
        ofText tenor Registry.builtin
            "\x7b sa ri1 \x7d \x7b :/ : \x7d" =
          .ok rendition ∧
        rendition.IsLossless := by
  have hObtained :
      tenor.IsObtained tenorReader FileTree.access
        (FileTree.empty []) :=
    .ofText "shruti: 62" rfl
  have hOk :
      (ofText tenor Registry.builtin
        "\x7b sa ri1 \x7d \x7b :/ : \x7d").isOk = true := by
    decide +kernel
  rcases exists_eq_ok_of_isOk hOk with ⟨rendition, hText⟩
  exact ⟨rendition, hObtained, hText,
    isLossless_of_isObtained hObtained hText⟩

end Rendition

end Carnatic
