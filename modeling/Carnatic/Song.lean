import Carnatic.Token

/-
  Songs as trees.

  A song is a list of lines.  A line pairs a list of svaras
  with a list of gamakas; a svara lasts for a number of time
  units.

  Key definitions include:
    * `Svara`
    * `Gamaka`
    * `Line`
    * `Song`
    * `Song.svaras`
    * `Song.gamakas`
-/

------------------------------------------------------------
-- Songs
------------------------------------------------------------

namespace Carnatic

/-
  A svara as written: its name and how long it is held. A
  duration is taken to be below 2^32, which a svara passes
  only with as many continuations behind its name. Up to there
  counting in 32 bits is counting without a bound.
-/
structure Svara where
  name : String
  duration : Nat
  position : Position
deriving DecidableEq, Repr

/- A gamaka as written: the name of a curve. -/
structure Gamaka where
  name : String
  position : Position
deriving DecidableEq, Repr

/- A phrase: svaras, and the gamakas that follow each. -/
structure Line where
  svaras : List Svara
  gamakas : List Gamaka
  position : Position
deriving DecidableEq, Repr

/- A song: its lines in order. -/
structure Song where
  lines : List Line
deriving DecidableEq, Repr

/- A svara that repeats the pitch before it. -/
def Svara.isContinuation (svara : Svara) : Bool :=
  svara.name = continuation

namespace Song

/- All svaras of a song in order. -/
def svaras (song : Song) : List Svara :=
  song.lines.flatMap Line.svaras

/- All gamakas of a song in order. -/
def gamakas (song : Song) : List Gamaka :=
  song.lines.flatMap Line.gamakas

/- A song without svaras. -/
def isEmpty (song : Song) : Bool :=
  song.lines.all fun line => line.svaras.isEmpty

end Song

end Carnatic
