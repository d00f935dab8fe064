import Carnatic.Token

/-
  What can be wrong with a song.

  An error is a cause and the place it is about.  Its text
  follows from the two.

  Key definitions include:
    * `SongError`
    * `SongError.Cause`
    * `SongError.Stage`
    * `SongError.message`
    * `SongError.render`
-/

------------------------------------------------------------
-- Causes
------------------------------------------------------------

namespace Carnatic

namespace SongError

/- The reading stages that find errors, in their order. -/
inductive Stage
| words
| grammar
| music
deriving DecidableEq, Repr

/- The ways in which a song fails to be a piece of music. -/
inductive Cause
| invalidWord (word : String)
| unexpected (expected : TokenKind) (found : Option String)
| unequalCounts (svaras gamakas : Nat)
| unknownSvara (name : String)
| leadingContinuation
| unknownGamaka (name : String)
| noteOutOfRange (note : Int)
deriving DecidableEq, Repr

namespace Cause

/- The stage that finds a cause. -/
def stage : Cause → Stage
| .invalidWord _ => .words
| .unexpected _ _ => .grammar
| .unequalCounts _ _ => .grammar
| .unknownSvara _ => .music
| .leadingContinuation => .music
| .unknownGamaka _ => .music
| .noteOutOfRange _ => .music

/- The text of a cause. -/
def message : Cause → String
| .invalidWord word => "invalid token: " ++ word
| .unexpected expected found =>
    "expected " ++ expected.describe ++ ", found " ++
      match found with
      | some word => "'" ++ word ++ "'"
      | none => "end of input"
| .unequalCounts svaras gamakas =>
    "expected equal numbers of svaras and gamakas, got " ++
      toString svaras ++ " svaras and " ++
      toString gamakas ++ " gamakas"
| .unknownSvara name => "not a svara: " ++ name
| .leadingContinuation =>
    "continuation ',' has no preceding svara"
| .unknownGamaka name => "not a gamaka: " ++ name
| .noteOutOfRange note =>
    "note " ++ toString note ++
      " is outside the MIDI range 0-127"

end Cause

/- How error texts name a stage. -/
def Stage.describe : Stage → String
| .words => "token error"
| .grammar => "parse error"
| .music => "music error"

end SongError

------------------------------------------------------------
-- Errors
------------------------------------------------------------

/- A cause and the place that it is about. -/
structure SongError where
  cause : SongError.Cause
  position : Position
deriving DecidableEq, Repr

namespace SongError

/- The stage that finds an error. -/
def stage (error : SongError) : Stage :=
  error.cause.stage

/- The text of an error without its place. -/
def message (error : SongError) : String :=
  error.cause.message

/- The whole text: place, stage and message. -/
def render (error : SongError) : String :=
  error.position.render ++ ": " ++ error.stage.describe ++
    ": " ++ error.message

end SongError

end Carnatic
