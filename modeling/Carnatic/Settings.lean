import Carnatic.Files
import Carnatic.Registry
import Carnatic.Text.Quoted

/-
  Settings of a rendition.

  Settings say which note the shruti is, how the device is
  addressed, how time is counted, and which curves there are
  beside the built-in ones.

  Key definitions include:
    * `Settings`
    * `Settings.standard`
    * `Settings.Violation`
    * `Settings.violation?`
    * `Settings.Error`
    * `Settings.registry`
-/

------------------------------------------------------------
-- Settings
------------------------------------------------------------

namespace Carnatic

/-
  What a song is rendered with: the note of the shruti, the
  program, channel and velocity, the ticks of a svara unit,
  the exponent of the easing, the ticks of a quarter note,
  and the points of further curves.
-/
structure Settings (R : Type) where
  shruti : UInt8
  program : UInt8
  channel : UInt8
  velocity : UInt8
  ticksPerUnit : UInt32
  easeExponent : Int
  ticksPerBeat : UInt16
  gamakas : NameTable (List (R × R))
deriving BEq

namespace Settings

/- The settings that hold where nothing else is said. -/
def standard {R : Type} : Settings R where
  shruti := 64
  program := 40
  channel := 0
  velocity := 64
  ticksPerUnit := 200
  easeExponent := 5
  ticksPerBeat := 480
  gamakas := NameTable.empty

------------------------------------------------------------
-- Validity
------------------------------------------------------------

/- A value that playing and writing cannot rely on. -/
inductive Violation
| shruti (note : UInt8)
| program (number : UInt8)
| channel (number : UInt8)
| velocity (value : UInt8)
| ticksPerUnit
| easeExponent (exponent : Int)
| ticksPerBeat (ticks : UInt16)
| gamakaName (name : String)
deriving DecidableEq, Repr

/- The text of a violation. -/
def Violation.message : Violation → String
| .shruti note =>
    "shruti must be a MIDI note (0-127), got " ++
      toString note
| .program number =>
    "program must be 0-127, got " ++ toString number
| .channel number =>
    "channel must be 0-15, got " ++ toString number
| .velocity value =>
    "velocity must be 1-127, got " ++ toString value
| .ticksPerUnit => "ticks_per_unit must be positive"
| .easeExponent exponent =>
    "ease_exponent must be at least 1, got " ++
      toString exponent
| .ticksPerBeat ticks =>
    "ticks_per_beat must be 1-32767, got " ++ toString ticks
| .gamakaName name =>
    "gamaka names start with ':', got " ++ Text.quote name

variable {R : Type}

/- A name that a song can refer to leads with a colon. -/
def isGamakaName (name : String) : Bool :=
  name.toList.head? = some ':'

/-
  The first violation, in the order of the fields. The top
  bit of the ticks of a quarter note has another meaning in a
  file, so it stays clear.
-/
def violation? (settings : Settings R) : Option Violation :=
  if 127 < settings.shruti then
    some (.shruti settings.shruti)
  else if 127 < settings.program then
    some (.program settings.program)
  else if 15 < settings.channel then
    some (.channel settings.channel)
  else if settings.velocity < 1 ∨ 127 < settings.velocity then
    some (.velocity settings.velocity)
  else if settings.ticksPerUnit = 0 then
    some .ticksPerUnit
  else if settings.easeExponent < 1 then
    some (.easeExponent settings.easeExponent)
  else if settings.ticksPerBeat = 0 ∨
      0x7FFF < settings.ticksPerBeat then
    some (.ticksPerBeat settings.ticksPerBeat)
  else
    (settings.gamakas.names.find? fun name =>
      !isGamakaName name).map Violation.gamakaName

------------------------------------------------------------
-- Errors
------------------------------------------------------------

/- Why there are no usable settings. What is wrong with a text
that no settings can be read from is for its reader to
say. -/
inductive Error (R : Type)
| unreadable (error : FileError)
| malformed (cause : String)
| invalid (violation : Violation)
| badCurve (name : String) (error : Curve.Error R)
deriving DecidableEq, Repr

namespace Error

/- The error below an error, as a text. -/
def source? : Error Float → Option String
| .unreadable error => some error.message
| .malformed cause => some cause
| .invalid _ => none
| .badCurve _ error => some error.message

/- The text of an error. It includes the one below it. -/
def message : Error Float → String
| .unreadable error => "cannot read config: " ++ error.message
| .malformed cause => "invalid config YAML: " ++ cause
| .invalid violation =>
    "invalid config: " ++ violation.message
| .badCurve name error =>
    "invalid gamaka " ++ Text.quote name ++ ": " ++
      error.message

end Error

/- Settings without a violation, as they are. -/
def validated
    (settings : Settings R) : Except (Error R) (Settings R) :=
  match settings.violation? with
  | some violation => .error (.invalid violation)
  | none => .ok settings

------------------------------------------------------------
-- Curves
------------------------------------------------------------

variable [Scalar R]

/- Add curves to a registry, stopping at the first one whose
points make no curve. -/
def registerAll :
    Registry R → List (String × List (R × R)) →
      Except (Error R) (Registry R)
| registry, [] => .ok registry
| registry, (name, points) :: rest =>
    match Curve.ofPoints name points with
    | .ok curve => registerAll (registry.register curve) rest
    | .error error => .error (.badCurve name error)

/- The built-in curves and those of the settings. -/
def registry
    (settings : Settings R) :
    Except (Error R) (Registry R) :=
  registerAll Registry.builtin settings.gamakas.entries

end Settings

end Carnatic
