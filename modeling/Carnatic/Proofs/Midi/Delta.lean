import Carnatic.Proofs.Midi.Clock
import Mathlib.Data.List.Chain

/-
  Streams from absolute ticks.

  Events at absolute ticks make a stream when each carries the
  ticks since the one before it, as a number of thirty-two
  bits. The stream gives the ticks back as long as no event
  waits for too many of them.

  Main declarations:
    * `Midi.untimedFrom`
    * `Midi.IsClose`
    * `Midi.timedFrom_untimedFrom`
    * `Midi.elapsed_eq_lastTick`
-/

------------------------------------------------------------
-- Streams
------------------------------------------------------------

namespace Carnatic

namespace Midi

/- The stream of some events, behind an event at a tick. -/
def untimedFrom : Nat → List Timed → List Event
| _, [] => []
| clock, event :: rest =>
    ⟨UInt32.ofNat (event.tick - clock), event.channel,
      event.message⟩ ::
      untimedFrom event.tick rest

/- The tick of the last of some events that lie behind a
tick, or this tick where there is none. -/
def lastTickFrom : Nat → List Timed → Nat
| clock, [] => clock
| _, event :: rest => lastTickFrom event.tick rest

/- Between two events that follow each other fewer ticks pass
than a delta can count. -/
def IsClose (record : List Timed) : Prop :=
  (record.map Timed.tick).IsChain fun first second =>
    second < first + UInt32.size

instance (record : List Timed) :
    Decidable (IsClose record) :=
  inferInstanceAs (Decidable (List.IsChain _ _))

@[simp]
theorem lastTickFrom_append
    (clock : Nat)
    (first second : List Timed) :
    lastTickFrom clock (first ++ second) =
      lastTickFrom (lastTickFrom clock first) second := by
  induction first generalizing clock with
  | nil => rfl
  | cons event rest ih => exact ih event.tick

@[simp]
theorem untimedFrom_append
    (clock : Nat)
    (first second : List Timed) :
    untimedFrom clock (first ++ second) =
      untimedFrom clock first ++
        untimedFrom (lastTickFrom clock first) second := by
  induction first generalizing clock with
  | nil => rfl
  | cons event rest ih =>
      simp [untimedFrom, lastTickFrom, ih]

@[simp]
theorem length_untimedFrom
    (clock : Nat)
    (record : List Timed) :
    (untimedFrom clock record).length = record.length := by
  induction record generalizing clock with
  | nil => rfl
  | cons event rest ih => simp [untimedFrom, ih]

/- The last event stands at the last tick. -/
theorem lastTickFrom_eq_of_getLast?
    (clock : Nat)
    {record : List Timed}
    {last : Timed}
    (hLast : record.getLast? = some last) :
    lastTickFrom clock record = last.tick := by
  rcases List.getLast?_eq_some_iff.mp hLast with
    ⟨front, rfl⟩
  rw [lastTickFrom_append]
  rfl

/- A chain of ticks goes on from its last one. -/
theorem isChain_tick_concat_iff
    {clock : Nat}
    {record : List Timed}
    {event : Timed}
    {relation : Nat → Nat → Prop} :
    (clock ::
        (record ++ [event]).map Timed.tick).IsChain relation ↔
      (clock :: record.map Timed.tick).IsChain relation ∧
        relation (lastTickFrom clock record) event.tick := by
  induction record generalizing clock with
  | nil => simp [lastTickFrom]
  | cons first rest ih =>
      simp only [List.cons_append, List.map_cons,
        List.isChain_cons_cons, ih, lastTickFrom, and_assoc]

------------------------------------------------------------
-- Reading Ticks Back
------------------------------------------------------------

/- A stream runs up to its last event. -/
theorem elapsed_eq_lastTickFrom
    (clock : Nat)
    (events : List Event) :
    clock + elapsed events =
      lastTickFrom clock (timedFrom clock events) := by
  induction events generalizing clock with
  | nil => rfl
  | cons event rest ih =>
      rw [timedFrom, lastTickFrom, ← ih, elapsed,
        Nat.add_assoc]

/- A whole stream runs up to the tick of its last event. -/
theorem elapsed_eq_lastTick (events : List Event) :
    elapsed events = lastTickFrom 0 (timed events) := by
  rw [timed, ← elapsed_eq_lastTickFrom, Nat.zero_add]

/- A delta counts what passes between two events, if that is
not too much. -/
theorem add_toNat_ofNat_sub
    {clock tick : Nat}
    (hOrder : clock ≤ tick)
    (hClose : tick < clock + UInt32.size) :
    clock + (UInt32.ofNat (tick - clock)).toNat = tick := by
  rw [UInt32.toNat_ofNat_of_lt' (by omega)]
  omega

/- Events in order and close together are found at their ticks
again. -/
theorem timedFrom_untimedFrom
    {clock : Nat}
    {record : List Timed}
    (hOrder :
      (clock :: record.map Timed.tick).IsChain (· ≤ ·))
    (hClose :
      (clock :: record.map Timed.tick).IsChain
        fun first second =>
          second < first + UInt32.size) :
    timedFrom clock (untimedFrom clock record) = record := by
  induction record generalizing clock with
  | nil => rfl
  | cons event rest ih =>
      rw [List.map_cons, List.isChain_cons_cons]
        at hOrder hClose
      have hTick := add_toNat_ofNat_sub hOrder.1 hClose.1
      rw [untimedFrom, timedFrom, hTick,
        ih hOrder.2 hClose.2]

end Midi

end Carnatic
