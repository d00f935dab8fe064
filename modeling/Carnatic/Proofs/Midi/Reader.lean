import Carnatic.Midi.File

/-
  Reading files back.

  A reader of standard files: a header chunk, then as many
  track chunks as it declares. A chunk is cut off by its
  length. In a track, every event has a variable-length delta
  and a status byte, whose high half says which message it is
  and how many data bytes follow; the last event of a track is
  the meta event that ends it, and nothing stands behind it.

  Main declarations:
    * `Midi.Quantity.read?`
    * `Midi.readMessage?`
    * `Midi.readTrack?`
    * `Midi.readChunk?`
    * `Midi.readFile?`
-/

------------------------------------------------------------
-- Numbers
------------------------------------------------------------

namespace Carnatic

namespace Midi

/- Cut some bytes off the front, if there are as many. -/
def split?
    (count : Nat)
    (bytes : List UInt8) :
    Option (List UInt8 × List UInt8) :=
  if count ≤ bytes.length then
    some (bytes.take count, bytes.drop count)
  else
    none

/- The number that bytes spell behind the digits of a number,
the most significant first. -/
def bigEndianFrom : Nat → List UInt8 → Nat
| value, [] => value
| value, byte :: rest =>
    bigEndianFrom (value * 256 + byte.toNat) rest

/- Read a number of some bytes. -/
def readNumber?
    (count : Nat)
    (bytes : List UInt8) : Option (Nat × List UInt8) := do
  let (digits, rest) ← split? count bytes
  some (bigEndianFrom 0 digits, rest)

/- Read on behind the groups of a number, up to the first byte
whose top bit is clear. -/
def Quantity.readFrom :
    Nat → List UInt8 → Option (Nat × List UInt8)
| _, [] => none
| value, byte :: rest =>
    if byte < 128 then
      some (value * 128 + byte.toNat, rest)
    else
      readFrom (value * 128 + byte.toNat % 128) rest

/- Read a variable-length quantity of 32 bits. -/
def Quantity.read?
    (bytes : List UInt8) : Option (UInt32 × List UInt8) := do
  let (value, rest) ← readFrom 0 bytes
  if value < UInt32.size then
    some (UInt32.ofNat value, rest)
  else
    none

------------------------------------------------------------
-- Messages
------------------------------------------------------------

/- The number of data bytes of a kind of message, as the high
half of a status byte gives it. -/
def dataCount? : Nat → Option Nat
| 0x8 => some 2
| 0x9 => some 2
| 0xA => some 2
| 0xB => some 2
| 0xC => some 1
| 0xD => some 1
| 0xE => some 2
| _ => none

/- The message of a kind with its data. The velocity of a note
that stops is dropped. -/
def messageOf? : Nat → List UInt8 → Option Message
| 0x8, [note, _] => some (.noteOff note)
| 0x9, [note, velocity] => some (.noteOn note velocity)
| 0xB, [controller, value] =>
    some (.controlChange controller value)
| 0xC, [program] => some (.programChange program)
| 0xE, [low, high] =>
    some (.pitchBend (low.toNat + 128 * high.toNat - 8192))
| _, _ => none

/- Read a status byte and its data bytes, whose top bits are
clear. -/
def readMessage?
    (bytes : List UInt8) :
    Option ((UInt8 × Message) × List UInt8) :=
  match bytes with
  | [] => none
  | status :: behind => do
      let kind := status.toNat / 16
      let count ← dataCount? kind
      let (data, rest) ← split? count behind
      if data.all (· < 128) then
        let message ← messageOf? kind data
        some ((status &&& 0x0F, message), rest)
      else
        none

------------------------------------------------------------
-- Tracks
------------------------------------------------------------

/- The meta event that ends a track. -/
def endMarker : List UInt8 :=
  [0xFF, 0x2F, 0x00]

theorem length_of_split?
    {count : Nat}
    {bytes front rest : List UInt8}
    (hSplit : split? count bytes = some (front, rest)) :
    rest.length ≤ bytes.length := by
  unfold split? at hSplit
  split at hSplit
  · simp only [Option.some.injEq, Prod.mk.injEq] at hSplit
    rw [← hSplit.2]
    exact (List.drop_suffix count bytes).length_le
  · simp at hSplit

theorem length_of_readFrom
    {value number : Nat}
    {bytes rest : List UInt8}
    (hRead :
      Quantity.readFrom value bytes = some (number, rest)) :
    rest.length < bytes.length := by
  induction bytes generalizing value with
  | nil => simp [Quantity.readFrom] at hRead
  | cons byte behind ih =>
      simp only [Quantity.readFrom] at hRead
      split at hRead
      · simp only [Option.some.injEq,
          Prod.mk.injEq] at hRead
        rw [← hRead.2]
        exact Nat.lt_succ_self _
      · exact Nat.lt_succ_of_lt (ih hRead)

theorem length_of_read?
    {delta : UInt32}
    {bytes rest : List UInt8}
    (hRead : Quantity.read? bytes = some (delta, rest)) :
    rest.length < bytes.length := by
  unfold Quantity.read? at hRead
  cases hFrom : Quantity.readFrom 0 bytes with
  | none => simp [hFrom] at hRead
  | some read =>
      rcases read with ⟨value, behind⟩
      simp only [hFrom, Option.bind_eq_bind,
        Option.bind_some] at hRead
      split at hRead
      · simp only [Option.some.injEq,
          Prod.mk.injEq] at hRead
        rw [← hRead.2]
        exact length_of_readFrom hFrom
      · simp at hRead

theorem length_of_readMessage?
    {read : UInt8 × Message}
    {bytes rest : List UInt8}
    (hRead : readMessage? bytes = some (read, rest)) :
    rest.length < bytes.length := by
  cases bytes with
  | nil => simp [readMessage?] at hRead
  | cons status behind =>
      simp only [readMessage?, Option.bind_eq_bind,
        Option.bind_eq_some_iff] at hRead
      rcases hRead with ⟨count, _, ⟨data, left⟩, hSplit, hData⟩
      have hLeft := length_of_split? hSplit
      split at hData
      · simp only [Option.bind_eq_some_iff,
          Option.some.injEq, Prod.mk.injEq] at hData
        rcases hData with ⟨message, _, _, rfl⟩
        exact Nat.lt_succ_of_le hLeft
      · simp at hData

/- Read the events of a track, up to the one that ends it. -/
def readTrack?
    (bytes : List UInt8) : Option (List Event) :=
  match _hDelta : Quantity.read? bytes with
  | none => none
  | some (delta, behind) =>
      match _hMessage : readMessage? behind with
      | some ((channel, message), rest) =>
          (readTrack? rest).map (⟨delta, channel, message⟩ :: ·)
      | none =>
          if behind = endMarker then some [] else none
termination_by bytes.length
decreasing_by
  exact Nat.lt_trans (length_of_readMessage? _hMessage)
    (length_of_read? _hDelta)

------------------------------------------------------------
-- Files
------------------------------------------------------------

/- Read a chunk with a tag. -/
def readChunk?
    (tag : List UInt8)
    (bytes : List UInt8) :
    Option (List UInt8 × List UInt8) := do
  let (found, behind) ← split? 4 bytes
  if found = tag then
    let (length, rest) ← readNumber? 4 behind
    split? length rest
  else
    none

/- Read some track chunks. -/
def readTracks? :
    Nat → List UInt8 →
      Option (List (List Event) × List UInt8)
| 0, bytes => some ([], bytes)
| count + 1, bytes => do
    let (data, behind) ← readChunk? trackTag bytes
    let events ← readTrack? data
    let (others, rest) ← readTracks? count behind
    some (events :: others, rest)

/- What a file says: the fields of its header, and its
tracks. -/
structure Reading where
  format : Nat
  trackCount : Nat
  ticksPerBeat : Nat
  tracks : List (List Event)
deriving DecidableEq

/- Read a file. -/
def readFile?
    (bytes : List UInt8) :
    Option (Reading × List UInt8) := do
  let (header, behind) ← readChunk? headerTag bytes
  let (format, header) ← readNumber? 2 header
  let (trackCount, header) ← readNumber? 2 header
  let (ticksPerBeat, _) ← readNumber? 2 header
  let (tracks, rest) ← readTracks? trackCount behind
  some (⟨format, trackCount, ticksPerBeat, tracks⟩, rest)

end Midi

end Carnatic
