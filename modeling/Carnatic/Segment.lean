import Carnatic.Pitch
import Carnatic.Registry
import Carnatic.Song.Reader

/-
  Segments of a tune.

  A svara sounds at a point in time, and its gamaka shapes
  the pitch on the way to the next svara.  A segment takes
  both together.  The segment of the last svara stays at its
  pitch.

  Key definitions include:
    * `Segment`
    * `Song.segments`
    * `Segment.ofText`
-/

------------------------------------------------------------
-- Segments
------------------------------------------------------------

namespace Carnatic

/-
  The way from one svara to the next along a curve. Pitches
  are semitones from the shruti. The duration is that of the
  svara, and is taken to be below 2^32 as well.
-/
structure Segment (R : Type) [Scalar R] where
  start : Int
  target : Int
  duration : Nat
  curve : Curve R
  position : Position
deriving DecidableEq, Repr

namespace Segment

variable {R : Type} [Scalar R]

/- A segment that ends on the pitch it starts from. -/
def isSustain (segment : Segment R) : Bool :=
  segment.start = segment.target

end Segment

------------------------------------------------------------
-- Names Of A Song
------------------------------------------------------------

namespace Song

variable {R : Type} [Scalar R]

/- The pitches of svaras, or the first unknown name. -/
def pitchesOf :
    List Svara → Except SongError (List Pitch)
| [] => .ok []
| svara :: rest =>
    match svara.pitch with
    | .error error => .error error
    | .ok pitch =>
        match pitchesOf rest with
        | .error error => .error error
        | .ok pitches => .ok (pitch :: pitches)

/- The offsets of svaras. A continuation repeats the offset
before it, so it cannot come first. -/
def offsetsOf
    (svaras : List Svara) : Except SongError (List Int) :=
  match pitchesOf svaras with
  | .error error => .error error
  | .ok pitches =>
      match Pitch.carryForward pitches, svaras with
      | some offsets, _ => .ok offsets
      | none, [] => .ok []
      | none, first :: _ =>
          .error ⟨.leadingContinuation, first.position⟩

/- The curves of gamakas, or the first unknown name. -/
def curvesOf
    (registry : Registry R) :
    List Gamaka → Except SongError (List (Curve R))
| [] => .ok []
| gamaka :: rest =>
    match registry.get? gamaka.name with
    | none =>
        .error ⟨.unknownGamaka gamaka.name, gamaka.position⟩
    | some curve =>
        match curvesOf registry rest with
        | .error error => .error error
        | .ok curves => .ok (curve :: curves)

------------------------------------------------------------
-- Building Segments
------------------------------------------------------------

/-
  Join svaras with their offsets and curves. Each offset is
  followed by the next one as target, and the last one by
  itself.
-/
def join :
    List Svara → List Int → List (Curve R) →
      List (Segment R)
| svara :: svaras, start :: offsets, curve :: curves =>
    ⟨start, offsets.headD start, svara.duration, curve,
      svara.position⟩ :: join svaras offsets curves
| _, _, _ => []

/-
  The segments of a song. All svaras are resolved before any
  gamaka is looked up.
-/
def segments
    (song : Song)
    (registry : Registry R) :
    Except SongError (List (Segment R)) :=
  match offsetsOf song.svaras with
  | .error error => .error error
  | .ok offsets =>
      match curvesOf registry song.gamakas with
      | .error error => .error error
      | .ok curves => .ok (join song.svaras offsets curves)

end Song

/- The segments that a text writes. -/
def Segment.ofText
    {R : Type} [Scalar R]
    (registry : Registry R)
    (text : String) : Except SongError (List (Segment R)) :=
  match Song.ofText text with
  | .error error => .error error
  | .ok song => song.segments registry

end Carnatic
