import Carnatic.Proofs.Midi.RoundTrip
import Mathlib.Data.Nat.Log

/-
  The sizes of what a file holds.

  A quantity takes a byte for every seven bits, a message two
  or three bytes, and a track the bytes of its events and four
  more. The field in front of a track has four bytes, so it
  states the length of the track if this is below 2 ^ 32, and
  what is left of it above a multiple of this number otherwise.

  Main declarations:
    * `Midi.Quantity.length_encode`
    * `Midi.Message.size` and `Midi.Event.size`
    * `Midi.length_trackData`
    * `Midi.HasOneTrack` and `Midi.StatesLength`
    * `Midi.File.hasOneTrack`
    * `Midi.File.statesLength_iff`
-/

------------------------------------------------------------
-- Quantities
------------------------------------------------------------

namespace Carnatic

namespace Midi

/- In front of the last byte there is one for each further
group of seven bits. -/
theorem Quantity.length_leading_div (n : Nat) :
    (leading (n / 128)).length = Nat.log 128 n := by
  induction n using Nat.strong_induction_on with
  | h n ih =>
      by_cases hSmall : n < 128
      · rw [Nat.div_eq_of_lt hSmall,
          Nat.log_of_lt hSmall, leading]
        rfl
      · have hGroups : n / 128 ≠ 0 := by omega
        have hSmaller : n / 128 < n := by omega
        rw [leading, if_neg hGroups, List.length_append,
          ih (n / 128) hSmaller,
          Nat.log_of_one_lt_of_le (by decide)
            (Nat.not_lt.mp hSmall)]
        rfl

theorem Quantity.length_encode (value : UInt32) :
    (encode value).length =
      Nat.log 128 value.toNat + 1 := by
  rw [encode_eq, List.length_append, length_leading_div]
  rfl

------------------------------------------------------------
-- Messages And Tracks
------------------------------------------------------------

/- The bytes of a message: its status, and one or two bytes of
data. -/
def Message.size : Message → Nat
| .programChange _ => 2
| _ => 3

theorem Message.length_encode
    (channel : UInt8)
    (message : Message) :
    (message.encode channel).length = message.size := by
  cases message <;> rfl

/- The bytes of an event: its delta and its message. -/
def Event.size (event : Event) : Nat :=
  Nat.log 128 event.delta.toNat + 1 + event.message.size

theorem Event.length_encode (event : Event) :
    event.encode.length = event.size := by
  rw [encode, List.length_append, Quantity.length_encode,
    Message.length_encode, size]

/- The bytes of a track: those of its events, and the event
that closes it. -/
theorem length_trackData (events : List Event) :
    (trackData events).length =
      (events.map Event.size).sum + 4 := by
  rw [trackData, List.length_append, List.length_flatMap]
  simp only [Event.length_encode]
  rfl

/- A track ends with the meta event that closes it. -/
theorem closes_trackData (events : List Event) :
    [0xFF, 0x2F, 0x00] <:+ trackData events :=
  (List.suffix_cons 0x00 _).trans (List.suffix_append _ _)

------------------------------------------------------------
-- Files With One Track
------------------------------------------------------------

/- Everything up to the length of the only track: a header
that declares one track, and the tag of this track. -/
def frontOf (ticksPerBeat : UInt16) : List UInt8 :=
  headerTag ++ [0, 0, 0, 6, 0, 1, 0, 1] ++
    bigEndian 2 ticksPerBeat.toNat ++ trackTag

@[simp]
theorem length_frontOf (ticksPerBeat : UInt16) :
    (frontOf ticksPerBeat).length = 18 :=
  rfl

/- The number in the four bytes behind the tag of the first
track. -/
def statedLength (bytes : List UInt8) : Nat :=
  bigEndianFrom 0 ((bytes.drop 18).take 4)

/- The length that a file states for its first track is that
of all the bytes behind it. -/
def StatesLength (bytes : List UInt8) : Prop :=
  statedLength bytes = (bytes.drop 22).length

/-
  A file with one track: its header has fourteen bytes, the
  track starts with its tag and its length, and the last three
  bytes are those of the meta event that closes it.
-/
structure HasOneTrack
    (ticksPerBeat : UInt16)
    (bytes : List UInt8) : Prop where
  take_eq : bytes.take 18 = frontOf ticksPerBeat
  length_gt : 22 < bytes.length
  closes : [0xFF, 0x2F, 0x00] <:+ bytes.drop 22

namespace File

theorem bytes_singleton
    (ticksPerBeat : UInt16)
    (events : List Event) :
    bytes ⟨ticksPerBeat, [events]⟩ =
      frontOf ticksPerBeat ++
        (bigEndian 4 (trackData events).length ++
          trackData events) := by
  have hSix : bigEndian 4 6 = [0, 0, 0, 6] := by decide
  have hOne : bigEndian 2 1 = [0, 1] := by decide
  simp [bytes, chunk, headerData, frontOf, hSix, hOne]

/- The data of the track stand behind twenty-two bytes. -/
theorem drop_bytes_singleton
    (ticksPerBeat : UInt16)
    (events : List Event) :
    (bytes ⟨ticksPerBeat, [events]⟩).drop 22 =
      trackData events := by
  rw [bytes_singleton, ← List.append_assoc]
  exact List.drop_left' (by simp)

/- The length of a track loses what does not fit its field. -/
theorem statedLength_bytes_singleton
    (ticksPerBeat : UInt16)
    (events : List Event) :
    statedLength (bytes ⟨ticksPerBeat, [events]⟩) =
      (trackData events).length % 2 ^ 32 := by
  have hField :
      ((bytes ⟨ticksPerBeat, [events]⟩).drop 18).take 4 =
        bigEndian 4 (trackData events).length := by
    rw [bytes_singleton,
      List.drop_left' (length_frontOf ticksPerBeat),
      List.take_left' (length_bigEndian 4 _)]
  rw [statedLength, hField, bigEndianFrom_bigEndian,
    Nat.zero_mul, Nat.zero_add]
  rfl

theorem hasOneTrack
    (ticksPerBeat : UInt16)
    (events : List Event) :
    HasOneTrack ticksPerBeat
      (bytes ⟨ticksPerBeat, [events]⟩) where
  take_eq := by
    rw [bytes_singleton]
    exact List.take_left' (length_frontOf ticksPerBeat)
  length_gt := by
    have hData := congrArg List.length
      (drop_bytes_singleton ticksPerBeat events)
    rw [List.length_drop, length_trackData] at hData
    omega
  closes := by
    rw [drop_bytes_singleton]
    exact closes_trackData events

/- The length of a track is stated if it fits its field. -/
theorem statesLength_iff
    {ticksPerBeat : UInt16}
    {events : List Event} :
    StatesLength (bytes ⟨ticksPerBeat, [events]⟩) ↔
      (trackData events).length < 2 ^ 32 := by
  rw [StatesLength, statedLength_bytes_singleton,
    drop_bytes_singleton]
  exact Nat.mod_eq_iff_lt (by decide)

end File

end Midi

end Carnatic
