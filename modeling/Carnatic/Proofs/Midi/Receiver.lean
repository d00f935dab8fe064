import Carnatic.Proofs.Midi.Clock
import Mathlib.Data.Finset.Basic
import Mathlib.Data.Finset.Option

/-
  What a receiver makes of a stream.

  A receiver keeps the notes that sound and the last value of
  the wheel. A note that starts with velocity zero stops.

  Main declarations:
    * `Midi.Receiver`
    * `Midi.Receiver.hear`
    * `Midi.Receiver.replay`
    * `Midi.Receiver.heardAt`
    * `Midi.Receiver.replay_append`
-/

------------------------------------------------------------
-- Receivers
------------------------------------------------------------

namespace Carnatic

namespace Midi

/- The notes that sound, and where the wheel stands. -/
structure Receiver where
  sounding : Finset UInt8
  wheel : Int
deriving DecidableEq

namespace Receiver

/- A receiver that has heard nothing. -/
def silent : Receiver where
  sounding := ∅
  wheel := 0

/- Act on one message. -/
def hear
    (receiver : Receiver) :
    Message → Receiver
| .noteOn note velocity =>
    if velocity = 0 then
      { receiver with
        sounding := receiver.sounding.erase note }
    else
      { receiver with
        sounding := insert note receiver.sounding }
| .noteOff note =>
    { receiver with
      sounding := receiver.sounding.erase note }
| .pitchBend value => { receiver with wheel := value }
| .programChange _ => receiver
| .controlChange _ _ => receiver

/- Act on events in their order. -/
def replay
    (receiver : Receiver)
    (events : List Timed) : Receiver :=
  events.foldl
    (fun reached event => reached.hear event.message)
    receiver

/- The receiver once all events up to and including those at
a tick have reached it. -/
def heardAt
    (events : List Event)
    (tick : Nat) : Receiver :=
  silent.replay
    ((timed events).filter fun event => event.tick ≤ tick)

@[simp]
theorem replay_append
    (receiver : Receiver)
    (first second : List Timed) :
    receiver.replay (first ++ second) =
      (receiver.replay first).replay second :=
  List.foldl_append

/- Bends leave the notes alone. -/
theorem sounding_replay_bends
    (receiver : Receiver)
    (channel : UInt8)
    (beginning : Nat)
    (value : Nat → Int)
    (count : Nat) :
    (receiver.replay
      ((List.range count).map fun tick =>
        ⟨beginning + tick, channel,
          .pitchBend (value tick)⟩)).sounding =
      receiver.sounding := by
  induction count with
  | zero => rfl
  | succ count ih =>
      rw [List.range_succ, List.map_append, replay_append]
      exact ih

/- Bends move the wheel to the last of them. -/
theorem replay_bends
    (receiver : Receiver)
    (channel : UInt8)
    (beginning : Nat)
    (value : Nat → Int)
    (count : Nat) :
    receiver.replay
        ((List.range (count + 1)).map fun tick =>
          ⟨beginning + tick, channel,
            .pitchBend (value tick)⟩) =
      { receiver with wheel := value count } := by
  have hNotes := sounding_replay_bends receiver channel
    beginning value count
  rw [List.range_succ, List.map_append, replay_append]
  change Receiver.mk _ (value count) = _
  rw [hNotes]

end Receiver

end Midi

end Carnatic
