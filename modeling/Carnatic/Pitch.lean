import Carnatic.Song
import Carnatic.SongError

/-
  Pitches of svaras.

  A svara name stands for a number of semitones from the
  shruti, the reference note of a song.  The continuation
  stands for the pitch before it.

  Key definitions include:
    * `svaraNames`
    * `Pitch`
    * `Pitch.ofName?`
    * `Pitch.carryForward`
    * `Svara.pitch`
-/

------------------------------------------------------------
-- Names
------------------------------------------------------------

namespace Carnatic

/-
  The twelve names in scale order. A name's index is its
  offset from the shruti in semitones.
-/
def svaraNames : List String :=
  ["sa", "ri1", "ri2", "ga1", "ga2", "ma1",
    "ma2", "pa", "da1", "da2", "ni1", "ni2"]

/- What a svara name stands for. -/
inductive Pitch
| offset (semitones : Int)
| continuation
deriving DecidableEq, Repr

namespace Pitch

/- The octave sign at the end of a name, in semitones, and
the name without the sign. -/
def splitOctave (name : String) : String × Int :=
  match name.toList.getLast? with
  | some '+' => (String.ofList name.toList.dropLast, 12)
  | some '-' => (String.ofList name.toList.dropLast, -12)
  | _ => (name, 0)

/-
  The pitch of a name: one of the twelve, with at most one
  sign for the octave above or below behind it, or the
  continuation.
-/
def ofName? (name : String) : Option Pitch :=
  if name = Carnatic.continuation then
    some .continuation
  else
    let (base, octave) := splitOctave name
    match svaraNames.idxOf? base with
    | some index => some (.offset (index + octave))
    | none => none

------------------------------------------------------------
-- Carrying Pitches Forward
------------------------------------------------------------

/- Offsets after a known one: a continuation repeats the
offset before it. -/
def carryFrom : Int → List Pitch → List Int
| _, [] => []
| _, .offset semitones :: rest =>
    semitones :: carryFrom semitones rest
| last, .continuation :: rest =>
    last :: carryFrom last rest

/- The offset of every pitch, unless the first one is a
continuation. -/
def carryForward : List Pitch → Option (List Int)
| [] => some []
| .offset semitones :: rest =>
    some (semitones :: carryFrom semitones rest)
| .continuation :: _ => none

end Pitch

/- The pitch of a written svara. -/
def Svara.pitch (svara : Svara) : Except SongError Pitch :=
  match Pitch.ofName? svara.name with
  | some pitch => .ok pitch
  | none =>
      .error ⟨.unknownSvara svara.name, svara.position⟩

end Carnatic
