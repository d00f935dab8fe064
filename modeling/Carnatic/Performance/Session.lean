import Carnatic.Performance

/-
  Sessions.

  In a session a performance is asked for one thing after the
  other.  An action changes the performance in place: if it
  fails, what it has done before stays done.  The session
  goes on behind an action that fails.

  Key definitions include:
    * `Performance.Action`
    * `Performance.Action.ofStep`
    * `Performance.Reply`
    * `Performance.session`
-/

------------------------------------------------------------
-- Actions
------------------------------------------------------------

namespace Carnatic

namespace Performance

/- What is done to a performance in place, until it is done or
fails. -/
abbrev Action (R : Type) : Type → Type :=
  ExceptT SongError (StateM (Performance R))

variable {R : Type} [Scalar R]

namespace Action

/- Bend the note that sounds as a segment asks for at a tick,
and let the tick pass. -/
def tick
    (settings : Settings R)
    (segment : Segment R)
    (ticks tick : Nat) : Action R Unit := do
  modify fun reached =>
    reached.bend (bendAt settings segment ticks tick)
  modify fun reached => reached.advance 1

/- Sound a segment's note, if a device has it, and follow its
curve tick by tick. -/
def segment (segment : Segment R) : Action R Unit := do
  let settings := (← get).settings
  match noteOf? settings segment with
  | none => throw (noteError settings segment)
  | some note => do
      modify fun reached => reached.play note
      let ticks := ticksOf settings segment
      forM (List.range ticks) (tick settings segment ticks)

/- The action of a step. -/
def ofStep : Step R → Action R Unit
| .play note => modify fun reached => reached.play note
| .stop => modify fun reached => reached.stop
| .bend semitones =>
    modify fun reached => reached.bend semitones
| .advance ticks =>
    modify fun reached => reached.advance ticks
| .segment segment => Action.segment segment

end Action

------------------------------------------------------------
-- Sessions
------------------------------------------------------------

/- What a step answers, and the note that sounds behind it. -/
structure Reply where
  result : Except SongError Unit
  sounding : Option UInt8

/- Do steps one after the other, whether they fail or not: the
reply to each, and the performance behind all of them. -/
def session :
    Performance R → List (Step R) →
      List Reply × Performance R
| performance, [] => ([], performance)
| performance, step :: rest =>
    let (result, reached) :=
      (Action.ofStep step).run.run performance
    let (replies, last) := reached.session rest
    (⟨result, reached.sounding⟩ :: replies, last)

end Performance

end Carnatic
