import Carnatic.Settings.Reader
import Carnatic.Yaml.Node
import Carnatic.Yaml.Numeral

/-
  Settings in a settings text.

  Settings are written as a mapping from the names of their
  fields.  A field that is not written takes its standard
  value, and a name that is no field is passed over.  The
  program starts with this reader; nothing else depends on how
  it reads.

  Key definitions include:
    * `Yaml.fieldNames`
    * `Yaml.settings?`
    * `Yaml.settingsReader`
-/

------------------------------------------------------------
-- Values
------------------------------------------------------------

namespace Carnatic

namespace Yaml

namespace Node

/- The text of a scalar without quotation marks. -/
def plainText? : Node → Option String
| .scalar text true => some text
| _ => none

/- The text of any scalar. -/
def scalarText? : Node → Option String
| .scalar text _ => some text
| _ => none

/- A whole number from zero up to a bound. -/
def wholeUpTo?
    (bound : Nat)
    (node : Node) : Option Nat :=
  node.plainText?.bind (naturalUpTo? bound)

/- A byte. -/
def byte? (node : Node) : Option UInt8 :=
  (node.wholeUpTo? 0xFF).map UInt8.ofNat

/- A number. -/
def number? (node : Node) : Option Float :=
  node.plainText?.bind float?

/- The items of a sequence; an absent value has none. -/
def items? : Node → Option (List Node)
| .sequence items => some items
| .scalar "" true => some []
| _ => none

/- The entries of a mapping whose keys are all scalars; an
absent value has none. -/
def entries? : Node → Option (List (String × Node))
| .mapping entries =>
    entries.mapM fun (key, value) =>
      key.scalarText?.map fun name => (name, value)
| .scalar "" true => some []
| _ => none

/- A point of a curve: two numbers. -/
def point? (node : Node) : Option (Float × Float) :=
  match node.items? with
  | some [position, weight] =>
      match position.number?, weight.number? with
      | some position, some weight => some (position, weight)
      | _, _ => none
  | _ => none

/- The points of a curve. -/
def points?
    (node : Node) : Option (List (Float × Float)) :=
  node.items?.bind fun items => items.mapM point?

/- Curves by name. Of two with one name the last one counts. -/
def gamakas?
    (node : Node) :
    Option (NameTable (List (Float × Float))) :=
  node.entries?.bind fun entries =>
    entries.foldlM
      (fun table (name, value) =>
        value.points?.map fun points =>
          table.insert name points)
      NameTable.empty

end Node

------------------------------------------------------------
-- Fields
------------------------------------------------------------

/- The names of the fields. -/
def fieldNames : List String :=
  ["shruti", "program", "channel", "velocity",
    "ticks_per_unit", "ease_exponent", "ticks_per_beat",
    "gamakas"]

/- Set the field of a name. -/
def setField?
    (settings : Settings Float)
    (name : String)
    (node : Node) : Option (Settings Float) :=
  match name with
  | "shruti" =>
      node.byte?.map fun note =>
        { settings with shruti := note }
  | "program" =>
      node.byte?.map fun number =>
        { settings with program := number }
  | "channel" =>
      node.byte?.map fun number =>
        { settings with channel := number }
  | "velocity" =>
      node.byte?.map fun value =>
        { settings with velocity := value }
  | "ticks_per_unit" =>
      (node.wholeUpTo? 0xFFFFFFFF).map fun ticks =>
        { settings with ticksPerUnit := UInt32.ofNat ticks }
  | "ease_exponent" =>
      (node.plainText?.bind integer32?).map fun exponent =>
        { settings with easeExponent := exponent }
  | "ticks_per_beat" =>
      (node.wholeUpTo? 0xFFFF).map fun ticks =>
        { settings with ticksPerBeat := UInt16.ofNat ticks }
  | "gamakas" =>
      node.gamakas?.map fun gamakas =>
        { settings with gamakas := gamakas }
  | _ => some settings

/- Settings from a mapping in which no field occurs twice. -/
def settings? (node : Node) : Option (Settings Float) :=
  match node.entries? with
  | none => none
  | some entries =>
      let names := entries.map Prod.fst
      if fieldNames.any fun field => 1 < names.count field then
        none
      else
        entries.foldlM
          (fun settings (name, value) =>
            setField? settings name value)
          Settings.standard

/- The reader of settings texts. -/
def settingsReader : Settings.Reader where
  read text :=
    match (document? text).bind settings? with
    | none => .error "not a mapping of known settings"
    | some settings => .ok settings

end Yaml

end Carnatic
