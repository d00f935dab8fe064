/-
  Channel messages and events.

  A message tells a device what to do on one of its sixteen
  channels.  Its bytes are a status byte, whose low half is
  the channel, and data bytes of seven bits.

  Key definitions include:
    * `Midi.Message`
    * `Midi.Message.encode`
    * `Midi.Event`
-/

------------------------------------------------------------
-- Messages
------------------------------------------------------------

namespace Carnatic

namespace Midi

/- A channel message. A bend of zero leaves the pitch alone;
the wheel reaches from -8192 to 8191. -/
inductive Message
| programChange (program : UInt8)
| controlChange (controller value : UInt8)
| noteOn (note velocity : UInt8)
| noteOff (note : UInt8)
| pitchBend (value : Int)
deriving DecidableEq, Repr

/- The low seven bits of a byte. -/
def dataByte (byte : UInt8) : UInt8 :=
  byte &&& 0x7F

/- A status byte: the kind of message and a channel. -/
def statusByte (kind channel : UInt8) : UInt8 :=
  kind ||| (channel &&& 0x0F)

/-
  A bend as the number that is sent: counted from the lowest
  position of the wheel, and kept to fourteen bits.
-/
def wheelPosition (value : Int) : Nat :=
  min (value + 8192).toNat 0x3FFF

/- The bytes of a message on a channel. -/
def Message.encode
    (channel : UInt8) :
    Message → List UInt8
| .noteOff note =>
    [statusByte 0x80 channel, dataByte note, 0]
| .noteOn note velocity =>
    [statusByte 0x90 channel, dataByte note,
      dataByte velocity]
| .controlChange controller value =>
    [statusByte 0xB0 channel, dataByte controller,
      dataByte value]
| .programChange program =>
    [statusByte 0xC0 channel, dataByte program]
| .pitchBend value =>
    [statusByte 0xE0 channel,
      UInt8.ofNat (wheelPosition value % 128),
      UInt8.ofNat (wheelPosition value / 128)]

------------------------------------------------------------
-- Events
------------------------------------------------------------

/- A message on a channel, and the ticks that pass between
the event before it and itself. -/
structure Event where
  delta : UInt32
  channel : UInt8
  message : Message
deriving DecidableEq, Repr

end Midi

end Carnatic
