import Carnatic.Midi.File
import Carnatic.Segment
import Carnatic.Settings

/-
  Playing segments.

  One note sounds at a time.  While a segment lasts its note
  stays, and the pitch wheel carries the curve: every tick
  has one bend.

  Key definitions include:
    * `Performance`
    * `Performance.start`
    * `Performance.play`
    * `Performance.segment`
    * `Performance.finish`
    * `Performance.ofSegments`
-/

------------------------------------------------------------
-- Pitch Wheel
------------------------------------------------------------

namespace Carnatic

/- The semitones that the wheel reaches, each way. -/
def bendRange : Nat :=
  12

/- The messages that set the reach of the wheel: choose the
parameter, enter semitones and cents, choose none. -/
def bendRangeSetup : List Midi.Message :=
  [.controlChange 0x65 0x00,
    .controlChange 0x64 0x00,
    .controlChange 0x06 (UInt8.ofNat bendRange),
    .controlChange 0x26 0x00,
    .controlChange 0x65 0x7F,
    .controlChange 0x64 0x7F]

section Scalars

variable {R : Type} [Scalar R]

/- The wheel's value for a bend in semitones. Fractions are
dropped, and the wheel stops at its ends. -/
def bendValue (semitones : R) : Int :=
  let share := semitones / Scalar.ofInt bendRange
  let value := Scalar.truncate (share * Scalar.ofInt 8192)
  max (-8192) (min value 8191)

/- The eased time of a tick in a segment: the share of the
ticks before it, raised to the exponent. -/
def easedTime
    (exponent : Int)
    (tick ticks : Nat) : R :=
  Scalar.power
    (Scalar.ofInt tick / Scalar.ofInt ticks) exponent

end Scalars

------------------------------------------------------------
-- Performances
------------------------------------------------------------

/-
  A performance in progress: the ticks since the last event,
  the note that sounds, and the events so far.
-/
structure Performance (R : Type) where
  settings : Settings R
  gap : UInt32
  sounding : Option UInt8
  events : Array Midi.Event

namespace Performance

variable {R : Type}

/- Add a message, after the ticks that have passed. -/
def emit
    (performance : Performance R)
    (message : Midi.Message) : Performance R :=
  { performance with
    gap := 0
    events := performance.events.push
      ⟨performance.gap, performance.settings.channel,
        message⟩ }

/- Begin: choose the program and set the wheel's reach. -/
def start (settings : Settings R) : Performance R :=
  let silence : Performance R := ⟨settings, 0, none, #[]⟩
  (.programChange settings.program :: bendRangeSetup).foldl
    emit silence

/- Let time pass. -/
def advance
    (performance : Performance R)
    (ticks : UInt32) : Performance R :=
  { performance with gap := performance.gap + ticks }

/- Sound a note, unless it sounds already. It starts before
the note that sounded stops. -/
def play
    (performance : Performance R)
    (note : UInt8) : Performance R :=
  if performance.sounding = some note then
    performance
  else
    let started := performance.emit
      (.noteOn note performance.settings.velocity)
    let stopped :=
      match performance.sounding with
      | some old => started.emit (.noteOff old)
      | none => started
    { stopped with sounding := some note }

/- Stop the note that sounds, if there is one. -/
def stop (performance : Performance R) : Performance R :=
  match performance.sounding with
  | some note =>
      { performance.emit (.noteOff note) with
        sounding := none }
  | none => performance

/- The events of a performance that ends here. -/
def finish (performance : Performance R) : List Midi.Event :=
  performance.stop.events.toList

------------------------------------------------------------
-- Segments
------------------------------------------------------------

variable [Scalar R]

/- Bend the note that sounds by some semitones. -/
def bend
    (performance : Performance R)
    (semitones : R) : Performance R :=
  performance.emit (.pitchBend (bendValue semitones))

/- The ticks of a segment: its units, each of the set length,
up to the largest number of ticks. -/
def ticksOf
    (settings : Settings R)
    (segment : Segment R) : Nat :=
  min (segment.duration * settings.ticksPerUnit.toNat)
    (UInt32.size - 1)

/- The semitones that the wheel bends a segment's note by at
a tick. -/
def bendAt
    (settings : Settings R)
    (segment : Segment R)
    (ticks tick : Nat) : R :=
  let time := easedTime settings.easeExponent tick ticks
  segment.curve.sample time segment.start segment.target -
    Scalar.ofInt segment.start

/- The note of a segment, if a device has it. -/
def noteOf?
    (settings : Settings R)
    (segment : Segment R) : Option UInt8 :=
  let note : Int := settings.shruti.toNat + segment.start
  if 0 ≤ note ∧ note ≤ 127 then
    some (UInt8.ofNat note.toNat)
  else
    none

/- The error of a segment whose note no device has. -/
def noteError
    (settings : Settings R)
    (segment : Segment R) : SongError :=
  ⟨.noteOutOfRange (settings.shruti.toNat + segment.start),
    segment.position⟩

/- Sound a segment's note and follow its curve, one bend at
the start of every tick. -/
def segment
    (performance : Performance R)
    (segment : Segment R) :
    Except SongError (Performance R) :=
  let settings := performance.settings
  match noteOf? settings segment with
  | none => .error (noteError settings segment)
  | some note =>
      let ticks := ticksOf settings segment
      .ok ((List.range ticks).foldl
        (fun reached tick =>
          (reached.bend
            (bendAt settings segment ticks tick)).advance 1)
        (performance.play note))

/- Play segments one after the other. -/
def segments :
    Performance R → List (Segment R) →
      Except SongError (Performance R)
| performance, [] => .ok performance
| performance, first :: rest =>
    match performance.segment first with
    | .ok reached => reached.segments rest
    | .error error => .error error

/- The events of a whole tune. -/
def ofSegments
    (settings : Settings R)
    (tune : List (Segment R)) :
    Except SongError (List Midi.Event) :=
  match (start settings).segments tune with
  | .ok performance => .ok performance.finish
  | .error error => .error error

------------------------------------------------------------
-- Steps
------------------------------------------------------------

/- The things a performance can be asked to do. -/
inductive Step (R : Type) [Scalar R]
| play (note : UInt8)
| stop
| bend (semitones : R)
| advance (ticks : UInt32)
| segment (segment : Segment R)

/- Do one step. A step that fails changes nothing. -/
def step
    (performance : Performance R) :
    Step R → Except SongError (Performance R)
| .play note => .ok (performance.play note)
| .stop => .ok performance.stop
| .bend semitones => .ok (performance.bend semitones)
| .advance ticks => .ok (performance.advance ticks)
| .segment segment => performance.segment segment

end Performance

end Carnatic
