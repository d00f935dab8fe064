import Carnatic.Midi.Message
import Carnatic.Midi.Quantity

/-
  Standard MIDI files.

  A file is a header chunk and a chunk for each track.  A
  chunk is a tag of four letters, the number of bytes that
  follow, and these bytes.

  Key definitions include:
    * `Midi.File`
    * `Midi.trackData`
    * `Midi.chunk`
    * `Midi.File.bytes`
-/

------------------------------------------------------------
-- Chunks
------------------------------------------------------------

namespace Carnatic

namespace Midi

/- The lowest bytes of a number, most significant first. -/
def bigEndian : Nat → Nat → List UInt8
| 0, _ => []
| count + 1, n =>
    UInt8.ofNat (n >>> (8 * count)) :: bigEndian count n

/- A chunk: its tag, the length of its data, and the data. -/
def chunk
    (tag : List UInt8)
    (data : List UInt8) : List UInt8 :=
  tag ++ bigEndian 4 data.length ++ data

/- The letters `MThd`. -/
def headerTag : List UInt8 :=
  [0x4D, 0x54, 0x68, 0x64]

/- The letters `MTrk`. -/
def trackTag : List UInt8 :=
  [0x4D, 0x54, 0x72, 0x6B]

------------------------------------------------------------
-- Tracks
------------------------------------------------------------

/- The bytes of an event: its delta and its message. -/
def Event.encode (event : Event) : List UInt8 :=
  Quantity.encode event.delta ++
    event.message.encode event.channel

/- The meta event that closes every track. -/
def endOfTrack : List UInt8 :=
  [0x00, 0xFF, 0x2F, 0x00]

/- The data of a track: its events and the closing one. -/
def trackData (events : List Event) : List UInt8 :=
  events.flatMap Event.encode ++ endOfTrack

------------------------------------------------------------
-- Files
------------------------------------------------------------

/- Tracks that are played together, and the ticks that a
quarter note lasts. -/
structure File where
  ticksPerBeat : UInt16
  tracks : List (List Event)
deriving DecidableEq, Repr

namespace File

/- The data of the header: format 1, the number of tracks,
and the ticks of a quarter note. -/
def headerData (file : File) : List UInt8 :=
  bigEndian 2 1 ++ bigEndian 2 file.tracks.length ++
    bigEndian 2 file.ticksPerBeat.toNat

/- The bytes of a file. -/
def bytes (file : File) : List UInt8 :=
  chunk headerTag file.headerData ++
    file.tracks.flatMap fun events =>
      chunk trackTag (trackData events)

end File

end Midi

end Carnatic
