import Lightpath.Spectrum.Slot

/-!
# Cross-connect rules

A rule asks a device to forward the light of a slot from an input port to an output port. One port of a
device is common to all channels; a rule from there drops a channel, any other adds one.
-/

namespace Lightpath.CrossConnect

open Lightpath.Spectrum

/-! ## Devices -/

/-- The kinds of devices that switch light. -/
inductive DeviceType where
  | lineDegree
  | addDropFlex
  | inlineAmp
  | coherentAddDrop
  deriving DecidableEq, Repr

namespace DeviceType

/-- The name of a device type. -/
def name : DeviceType → String
  | lineDegree => "LINE_DEGREE"
  | addDropFlex => "ADD_DROP_FLEX"
  | inlineAmp => "INLINE_AMP"
  | coherentAddDrop => "COHERENT_ADD_DROP"

/-- Every device type with its name. -/
def names : List (String × DeviceType) :=
  [lineDegree, addDropFlex, inlineAmp, coherentAddDrop].map fun t => (t.name, t)

/-- Whether the device forwards the whole band, whatever its rules are. -/
def isFullBand : DeviceType → Bool
  | inlineAmp => true
  | coherentAddDrop => true
  | _ => false

/-- The target power in dBm on the way to the common port and on the way to a leaf port. -/
def targetPower : DeviceType → Bool → Float
  | lineDegree, true => -5.0
  | lineDegree, false => -12.0
  | _, true => -12.0
  | _, false => -5.0

end DeviceType

/-! ## Rules -/

/-- The side of a channel that a rule switches. -/
inductive Side where
  | add
  | drop
  deriving DecidableEq, Repr

/-- The name of a side. -/
def Side.name : Side → String
  | .add => "add"
  | .drop => "drop"

/-- A switching rule. -/
structure Rule where
  device : String
  input : Int
  output : Int
  slot : Slot
  power : Option Float
  deriving Repr

namespace Rule

/-- The side that the rule switches on a device with the given common port. -/
def side (r : Rule) (commonPort : Int) : Side :=
  if r.input = commonPort then .drop else .add

/-- The port of the rule that is not the common one. -/
def leafPort (r : Rule) (commonPort : Int) : Int :=
  if r.input = commonPort then r.output else r.input

/-- The key of the connection that a rule asks for: everything but its power. It is there for every rule; the
numbers of one that comes from a request, a table or a device are `Numeral.Writable`. -/
def key (r : Rule) : String :=
  r.device ++ ":" ++ toString r.input ++ "->" ++ toString r.output ++ "@" ++ r.slot.text

/-- A rule as a record. -/
def check : Form.Check Rule :=
  Form.record fun fields =>
    mk <$> fields.required "device_id" Form.text
      <*> fields.required "input_port" Form.whole
      <*> fields.required "output_port" Form.whole
      <*> fields.required "slot" Slot.check
      <*> fields.orElse "target_power" (Form.orNull Form.real) none

/-- A rule for ports as they are given. -/
def ofOrder (device input output : Json) (slot : Slot) : Form.Checked Rule :=
  (fun d i o => ⟨d, i, o, slot, none⟩) <$> (Form.text device).under (.field "device_id")
    <*> (Form.whole input).under (.field "input_port")
    <*> (Form.whole output).under (.field "output_port")

/-- The record of a rule. -/
def toJson (r : Rule) : Json :=
  .obj [("device_id", .str r.device), ("input_port", .int r.input), ("output_port", .int r.output),
    ("slot", r.slot.toJson), ("target_power", Json.ofFloat? r.power)]

end Rule

/-! ## Entries -/

/-- How far the device has come with a rule. -/
inductive RuleState where
  | pendingAdd
  | added
  | pendingRemove
  deriving DecidableEq, Repr

/-- The name of a state. -/
def RuleState.name : RuleState → String
  | .pendingAdd => "PENDING_ADD"
  | .added => "ADDED"
  | .pendingRemove => "PENDING_REMOVE"

/-- Every state with its name. -/
def RuleState.names : List (String × RuleState) :=
  [.pendingAdd, .added, .pendingRemove].map fun s => (s.name, s)

/-- A cross-connect as it is seen on a device. -/
structure Entry where
  rule : Rule
  state : RuleState
  deriving Repr

namespace Entry

/-- An entry as a record. -/
def check : Form.Check Entry :=
  Form.record fun fields =>
    mk <$> fields.required "rule" Rule.check
      <*> fields.orElse "state" (Form.choice RuleState.names) .added

/-- The record of an entry. -/
def toJson (e : Entry) : Json :=
  .obj [("rule", e.rule.toJson), ("state", .str e.state.name)]

end Entry

end Lightpath.CrossConnect
