import Carnatic.Proofs.Midi.RoundTrip

/-
  Messages that are written as they are.

  A writer cuts every field to the bits that a file has for
  it. A message whose fields have no more bits than that, on
  one of the sixteen channels, loses nothing: its bytes are
  its fields. A note that starts with some velocity is then
  no note that stops for a receiver.

  Main declarations:
    * `Midi.Message.plain`
    * `Midi.Message.IsAudible` and `Midi.Event.IsWhole`
    * `Midi.Message.encode_eq_plain`
    * `Midi.Message.lt_of_mem_tail_encode`
    * `Midi.Message.exists_noteOn_of_encode`
    * `Midi.Message.velocity_ne_zero_of_encode`
    * `Midi.File.readFile?_bytes_of_inRange`
-/

------------------------------------------------------------
-- Plain Bytes
------------------------------------------------------------

namespace Carnatic

namespace Midi

/- The bytes of a message with its fields as they are: the
kind of message and the channel, and the data behind them. A
bend counts from the lowest position of the wheel. -/
def Message.plain
    (channel : UInt8) :
    Message → List UInt8
| .noteOff note => [0x80 + channel, note, 0]
| .noteOn note velocity => [0x90 + channel, note, velocity]
| .controlChange controller value =>
    [0xB0 + channel, controller, value]
| .programChange program => [0xC0 + channel, program]
| .pitchBend value =>
    [0xE0 + channel,
      UInt8.ofNat ((value + 8192).toNat % 128),
      UInt8.ofNat ((value + 8192).toNat / 128)]

/- A note that starts is heard: velocity zero would stop
it. -/
def Message.IsAudible : Message → Prop
| .noteOn _ velocity => 1 ≤ velocity
| _ => True

/- An event that a file holds as it is, and whose note is
heard if it starts one. -/
def Event.IsWhole (event : Event) : Prop :=
  event.InRange ∧ event.message.IsAudible

------------------------------------------------------------
-- Written Fields
------------------------------------------------------------

/- The channel and the kind of a message stand side by side in
a status byte. -/
theorem statusByte_eq_add
    {kind channel : UInt8}
    (hChannel : channel ≤ 15)
    (hKind : kind.toNat % 16 = 0) :
    statusByte kind channel = kind + channel := by
  have hLow : channel.toNat ≤ 15 :=
    UInt8.le_iff_toNat_le.mp hChannel
  have hHigh : kind.toNat < 256 := kind.toNat_lt
  apply UInt8.toNat_inj.mp
  rw [toNat_statusByte hKind, UInt8.toNat_add]
  omega

theorem wheelPosition_of_inRange
    {value : Int}
    (hHigh : value ≤ 8191) :
    wheelPosition value = (value + 8192).toNat := by
  rw [wheelPosition, Nat.min_eq_left]
  omega

/- A message in range on one of the sixteen channels is
written as it is. -/
theorem Message.encode_eq_plain
    {channel : UInt8}
    {message : Message}
    (hChannel : channel ≤ 15)
    (hInRange : message.InRange) :
    message.encode channel = message.plain channel := by
  cases message with
  | programChange program =>
      simp (disch := decide) only [encode, plain, dataByte,
        and_mask_eq_self hInRange,
        statusByte_eq_add hChannel]
  | controlChange controller value =>
      simp (disch := decide) only [encode, plain, dataByte,
        and_mask_eq_self hInRange.1,
        and_mask_eq_self hInRange.2,
        statusByte_eq_add hChannel]
  | noteOn note velocity =>
      simp (disch := decide) only [encode, plain, dataByte,
        and_mask_eq_self hInRange.1,
        and_mask_eq_self hInRange.2,
        statusByte_eq_add hChannel]
  | noteOff note =>
      simp (disch := decide) only [encode, plain, dataByte,
        and_mask_eq_self hInRange,
        statusByte_eq_add hChannel]
  | pitchBend value =>
      simp (disch := decide) only [encode, plain,
        wheelPosition_of_inRange hInRange.2,
        statusByte_eq_add hChannel]

/- Behind the status byte, all top bits are clear. -/
theorem Message.lt_of_mem_tail_encode
    {channel : UInt8}
    {message : Message}
    {byte : UInt8}
    (hByte : byte ∈ (message.encode channel).tail) :
    byte < 0x80 := by
  cases message with
  | programChange program =>
      simp only [encode, List.tail_cons,
        List.mem_singleton] at hByte
      exact hByte ▸ dataByte_lt program
  | controlChange controller value =>
      simp only [encode, List.tail_cons, List.mem_cons,
        List.not_mem_nil, or_false] at hByte
      rcases hByte with rfl | rfl
      · exact dataByte_lt controller
      · exact dataByte_lt value
  | noteOn note velocity =>
      simp only [encode, List.tail_cons, List.mem_cons,
        List.not_mem_nil, or_false] at hByte
      rcases hByte with rfl | rfl
      · exact dataByte_lt note
      · exact dataByte_lt velocity
  | noteOff note =>
      simp only [encode, List.tail_cons, List.mem_cons,
        List.not_mem_nil, or_false] at hByte
      rcases hByte with rfl | rfl
      · exact dataByte_lt note
      · decide
  | pitchBend value =>
      have hPosition : wheelPosition value ≤ 0x3FFF :=
        Nat.min_le_right _ _
      simp only [encode, List.tail_cons, List.mem_cons,
        List.not_mem_nil, or_false] at hByte
      rw [UInt8.lt_iff_toNat_lt]
      change byte.toNat < 128
      rcases hByte with rfl | rfl <;>
        · rw [UInt8.toNat_ofNat']
          omega

/- The kind of a message is the high half of its status
byte. -/
theorem toNat_statusByte_div
    {kind : UInt8}
    (hKind : kind.toNat % 16 = 0)
    (channel : UInt8) :
    (statusByte kind channel).toNat / 16 =
      kind.toNat / 16 := by
  have hStatus := toNat_statusByte hKind channel
  omega

/- Only a note that starts is written as one. -/
theorem Message.exists_noteOn_of_encode
    {channel status : UInt8}
    {message : Message}
    {data : List UInt8}
    (hBytes : message.encode channel = status :: data)
    (hStarts : status.toNat / 16 = 0x9) :
    ∃ note velocity, message = .noteOn note velocity := by
  cases message with
  | noteOn note velocity => exact ⟨note, velocity, rfl⟩
  | _ =>
      rw [encode, List.cons.injEq] at hBytes
      rw [← hBytes.1,
        toNat_statusByte_div (by rfl)] at hStarts
      exact absurd hStarts (by decide)

/- No note is written as one that starts with velocity
zero. -/
theorem Message.velocity_ne_zero_of_encode
    {channel : UInt8}
    {message : Message}
    (hInRange : message.InRange)
    (hAudible : message.IsAudible)
    {status note velocity : UInt8}
    (hBytes :
      message.encode channel = [status, note, velocity])
    (hStarts : status.toNat / 16 = 0x9) :
    velocity ≠ 0 := by
  rcases exists_noteOn_of_encode hBytes hStarts with
    ⟨other, started, rfl⟩
  have hStarted : dataByte started = velocity := by
    simpa [encode] using congrArg List.getLast? hBytes
  rw [dataByte, and_mask_eq_self hInRange.2] at hStarted
  rw [← hStarted]
  rintro rfl
  have hPositive : (1 : UInt8) ≤ 0 := hAudible
  exact absurd hPositive (by decide)

------------------------------------------------------------
-- Files
------------------------------------------------------------

/- A file in range reads as its tracks, just as they are. -/
theorem File.readFile?_bytes_of_inRange
    {file : File}
    (hFits : file.Fits)
    (hInRange : file.InRange) :
    readFile? file.bytes =
      some
        (⟨1, file.tracks.length, file.ticksPerBeat.toNat,
          file.tracks⟩, []) := by
  rw [readFile?_bytes hFits, map_normal_eq_self hInRange]

end Midi

end Carnatic
