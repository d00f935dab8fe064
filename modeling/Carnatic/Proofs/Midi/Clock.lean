import Carnatic.Midi.Message

/-
  Absolute time in a stream of events.

  An event carries the ticks since the event before it. Its
  absolute tick is the sum of these up to and including its
  own, as an unbounded number.

  Main declarations:
    * `Midi.Timed`
    * `Midi.elapsed`
    * `Midi.timedFrom`
    * `Midi.timedFrom_append`
    * `Midi.timed_concat`
-/

------------------------------------------------------------
-- Events At Absolute Ticks
------------------------------------------------------------

namespace Carnatic

namespace Midi

/- A message on a channel at an absolute tick. -/
structure Timed where
  tick : Nat
  channel : UInt8
  message : Message
deriving DecidableEq, Repr

/- The ticks that pass from the start of a stream to its last
event. -/
def elapsed : List Event → Nat
| [] => 0
| event :: rest => event.delta.toNat + elapsed rest

/- The events of a stream that starts at a tick. -/
def timedFrom : Nat → List Event → List Timed
| _, [] => []
| clock, event :: rest =>
    ⟨clock + event.delta.toNat, event.channel,
      event.message⟩ ::
      timedFrom (clock + event.delta.toNat) rest

/- The events of a whole stream at their ticks. -/
def timed (events : List Event) : List Timed :=
  timedFrom 0 events

------------------------------------------------------------
-- Streams One After The Other
------------------------------------------------------------

@[simp]
theorem elapsed_append
    (first second : List Event) :
    elapsed (first ++ second) =
      elapsed first + elapsed second := by
  induction first with
  | nil => simp [elapsed]
  | cons event rest ih =>
      simp only [List.cons_append, elapsed, ih]
      omega

@[simp]
theorem length_timedFrom
    (clock : Nat)
    (events : List Event) :
    (timedFrom clock events).length = events.length := by
  induction events generalizing clock with
  | nil => rfl
  | cons event rest ih => simp [timedFrom, ih]

/- A stream that follows another one starts where that ends. -/
theorem timedFrom_append
    (clock : Nat)
    (first second : List Event) :
    timedFrom clock (first ++ second) =
      timedFrom clock first ++
        timedFrom (clock + elapsed first) second := by
  induction first generalizing clock with
  | nil => simp [timedFrom, elapsed]
  | cons event rest ih =>
      simp [timedFrom, elapsed, ih, Nat.add_assoc]

/- A further event stands at the end of the stream's time. -/
theorem timed_concat
    (events : List Event)
    (event : Event) :
    timed (events ++ [event]) =
      timed events ++
        [⟨elapsed events + event.delta.toNat,
          event.channel, event.message⟩] := by
  simp [timed, timedFrom_append, timedFrom]

end Midi

end Carnatic
