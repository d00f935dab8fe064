import Carnatic.Rendition
import Carnatic.Settings.Reader

/-
  Running the command line.

  A run is asked to perform a command with some options.  It
  reads settings and a song through a file interface and
  answers an exit code and two texts.  It writes at most one
  file, and only once everything else has succeeded.

  Key definitions include:
    * `CommandLine.Command`
    * `CommandLine.Options`
    * `CommandLine.Request`
    * `CommandLine.Failure`
    * `CommandLine.Outcome`
    * `CommandLine.perform`
    * `CommandLine.run`
-/

------------------------------------------------------------
-- Requests
------------------------------------------------------------

namespace Carnatic

namespace CommandLine

/- What the program does with a song. -/
inductive Command
| compile (source output : String)
| tokens (source : String)
| segments (source : String)
deriving DecidableEq, Repr

/- The options that were given: a settings file, and the note
of the shruti. -/
structure Options where
  settingsPath : Option String
  shruti : Option UInt8
deriving DecidableEq, Repr

/-
  What a reader of arguments makes of them: a command to
  perform, or a text that answers them, as help does, or what
  is wrong with them.
-/
inductive Request
| perform (options : Options) (command : Command)
| answered (text : String)
| misused (text : String)
deriving DecidableEq, Repr

------------------------------------------------------------
-- Failures
------------------------------------------------------------

/- Why a command fails. Settings that were asked for by a
path are reported with it. -/
inductive Failure
| settingsAt (path : String) (error : Settings.Error Float)
| settings (error : Settings.Error Float)
| unreadable (path : String) (error : FileError)
| song (path : String) (error : SongError)
| unwritable (path : String) (error : FileError)
deriving DecidableEq, Repr

namespace Failure

/- The text of a settings error and of the one below it. -/
def settingsTexts (error : Settings.Error Float) : List String :=
  error.message :: error.source?.toList

/- The texts of a failure, from the outside in. -/
def texts : Failure → List String
| .settingsAt path error =>
    ("loading config " ++ path) :: settingsTexts error
| .settings error => settingsTexts error
| .unreadable path error =>
    ["reading " ++ path, error.message]
| .song path error => [path ++ ":" ++ error.render]
| .unwritable path error =>
    ["writing " ++ path, error.message]

/- The line that reports a failure. -/
def report (failure : Failure) : String :=
  "error: " ++ ": ".intercalate failure.texts ++ "\n"

end Failure

------------------------------------------------------------
-- Listings
------------------------------------------------------------

/- A text with spaces in front, up to a width. -/
def alignRight (width : Nat) (text : String) : String :=
  String.ofList
    (List.replicate (width - text.length) ' ') ++ text

/- A text with spaces behind, up to a width. -/
def alignLeft (width : Nat) (text : String) : String :=
  text ++ String.ofList
    (List.replicate (width - text.length) ' ')

/- Texts as lines. -/
def unlines (texts : List String) : String :=
  String.join (texts.map fun text => text ++ "\n")

/- The line of a listing of segments. -/
def segmentLine
    {R : Type} [Scalar R]
    (segment : Segment R) : String :=
  segment.position.render ++ "\t" ++
    alignRight 4 (toString segment.start) ++ " -> " ++
    alignLeft 4 (toString segment.target) ++ " x" ++
    toString segment.duration ++ "\t" ++ segment.curve.name

------------------------------------------------------------
-- Commands
------------------------------------------------------------

variable {m : Type → Type} [Monad m]

/- The settings of a run: from the file asked for or the one
in the home directory, with the shruti asked for. -/
def settingsFor
    (files : FileAccess m)
    (reader : Settings.Reader)
    (home? : Option String)
    (options : Options) :
    m (Except Failure (Settings Float)) := do
  let loaded ←
    match options.settingsPath with
    | some path => do
        let result ← Settings.load files reader path
        pure (result.mapError (Failure.settingsAt path))
    | none => do
        let result ← Settings.loadDefault files reader home?
        pure (result.mapError Failure.settings)
  match loaded, options.shruti with
  | .ok settings, some note =>
      let chosen := { settings with shruti := note }
      return chosen.validated.mapError Failure.settings
  | loaded, _ => return loaded

/- The text of a song. -/
def sourceText
    (files : FileAccess m)
    (path : String) : m (Except Failure String) := do
  let result ← files.readText path
  return result.mapError (Failure.unreadable path)

/- The bytes of the file that a song is compiled to. -/
def compiled
    (settings : Settings Float)
    (path text : String) : Except Failure (List UInt8) := do
  let registry ← settings.registry.mapError Failure.settings
  let rendition ←
    (Rendition.ofText settings registry text).mapError
      (Failure.song path)
  return (rendition.file settings.ticksPerBeat).bytes

/- The listing of a song's tokens. -/
def tokenListing
    (path text : String) : Except Failure String := do
  let tokens ←
    (Token.ofText text).mapError (Failure.song path)
  return unlines (tokens.map Token.render)

/- The listing of a song's segments. -/
def segmentListing
    (settings : Settings Float)
    (path text : String) : Except Failure String := do
  let registry ← settings.registry.mapError Failure.settings
  let tune ←
    (Segment.ofText registry text).mapError
      (Failure.song path)
  return unlines (tune.map segmentLine)

/- Do what a command says: the text to print, or why there is
none. -/
def perform
    (files : FileAccess m)
    (reader : Settings.Reader)
    (home? : Option String)
    (options : Options)
    (command : Command) : m (Except Failure String) := do
  match ← settingsFor files reader home? options with
  | .error failure => return .error failure
  | .ok settings =>
      match command with
      | .compile source output =>
          match ← sourceText files source with
          | .error failure => return .error failure
          | .ok text =>
              match compiled settings source text with
              | .error failure => return .error failure
              | .ok bytes =>
                  match ← files.save output bytes with
                  | .error error =>
                      return .error (.unwritable output error)
                  | .ok () => return .ok ""
      | .tokens source =>
          match ← sourceText files source with
          | .error failure => return .error failure
          | .ok text => return tokenListing source text
      | .segments source =>
          match ← sourceText files source with
          | .error failure => return .error failure
          | .ok text =>
              return segmentListing settings source text

------------------------------------------------------------
-- Runs
------------------------------------------------------------

/- What a run leaves behind, files apart. -/
structure Outcome where
  exitCode : UInt8
  output : String
  errors : String
deriving DecidableEq, Repr

/- Run the program. What has been asked for without a command
is printed, and what is wrong with the arguments is
reported. -/
def run
    (files : FileAccess m)
    (reader : Settings.Reader)
    (home? : Option String)
    (request : Request) : m Outcome := do
  match request with
  | .answered text => return ⟨0, text, ""⟩
  | .misused text => return ⟨2, "", text⟩
  | .perform options command =>
      match ← perform files reader home? options command with
      | .ok output => return ⟨0, output, ""⟩
      | .error failure => return ⟨1, "", failure.report⟩

end CommandLine

end Carnatic
