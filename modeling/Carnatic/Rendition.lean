import Carnatic.Performance

/-
  Renditions of songs.

  A rendition is what a text sounds like: the events of its
  tune and the number of segments.

  Key definitions include:
    * `Rendition`
    * `Rendition.ofText`
    * `Rendition.file`
-/

------------------------------------------------------------
-- Renditions
------------------------------------------------------------

namespace Carnatic

/- The events of a tune and the number of its segments. -/
structure Rendition where
  events : List Midi.Event
  segmentCount : Nat
deriving DecidableEq, Repr

namespace Rendition

/- Render the song that a text writes. -/
def ofText
    {R : Type} [Scalar R]
    (settings : Settings R)
    (registry : Registry R)
    (text : String) : Except SongError Rendition :=
  match Segment.ofText registry text with
  | .error error => .error error
  | .ok tune =>
      match Performance.ofSegments settings tune with
      | .error error => .error error
      | .ok events => .ok ⟨events, tune.length⟩

/- A rendition as a file with one track. -/
def file
    (rendition : Rendition)
    (ticksPerBeat : UInt16) : Midi.File where
  ticksPerBeat := ticksPerBeat
  tracks := [rendition.events]

end Rendition

end Carnatic
