import Lightpath.Power.OpticalChannel
import Lightpath.Numeral.Reading
import Lightpath.Site.Session

/-!
# Power control

Powers are given to whoever controls them: a control of the host platform that only takes notes, or the
terminal devices themselves, whose ports belong to named components.
-/

namespace Lightpath.Power

open Lightpath.Site

/-! ## Terminal devices -/

/-- The terminal devices: the component of each port, and the devices that take powers, if not all do. -/
structure Terminals where
  componentOf : String → Int → Option String
  capable : Option (List String)

/-- Whether a device is among the capable ones. -/
def isCapable (capable : Option (List String)) (device : String) : Bool :=
  match capable with
  | none => true
  | some devices => devices.contains device

/-- The text of a port. -/
def portText (device : String) (port : Int) : String :=
  device ++ "/" ++ toString port

namespace Terminals

/-- Looks up the session of a device and complains if there is none. -/
def sessionOf? (device : String) : Act (Option Device) := do
  match ← session? device with
  | none =>
    complain ("Cannot request NETCONF session for " ++ device)
    return none
  | some d => return some d

/-- Sets the target power of a port and tells whether the device took it. -/
def setTarget (t : Terminals) (device : String) (port : Int) (component : Component) (power : Json) :
    Act Bool := do
  match t.componentOf device port with
  | none =>
    complain ("Port " ++ portText device port ++ " has no optical-channel component")
    return false
  | some name =>
    match ← sessionOf? device with
    | none => return false
    | some d =>
      match ← d.edit device "merge" (targetText name power) with
      | .error text =>
        complain ("Failed to set target-output-power of " ++ portText device port ++ ": " ++ text)
        return false
      | .ok true => return true
      | .ok false =>
        let label ← yield component.label
        complain ("The <edit-config> operation to set target-output-power of Port("
          ++ portText device port ++ ":" ++ label ++ ") is failed.")
        return false

/-- Reads the document with the component of a port. A reply without any text is no document at all. -/
def document? (t : Terminals) (device : String) (port : Int) (inner : String) :
    Act (Option Xml.Element) := do
  match t.componentOf device port with
  | none => return none
  | some name =>
    match ← sessionOf? device with
    | none => return none
    | some d =>
      match ← d.read device (filterText name inner) with
      | .error text =>
        complain ("Exception on Netconf protocol for " ++ device ++ ": " ++ text)
        return none
      | .ok none => throw .wrongKind
      | .ok (some reply) =>
        match Xml.parse? reply with
        | some root => return some root
        | none =>
          complain ("Unparsable reply from " ++ device ++ ": ")
          return none

/-- Reads a power of a port. -/
def read (t : Terminals) (device : String) (port : Int) (r : Reading) : Act (Option Float) := do
  match ← t.document? device port r.inner with
  | none => return none
  | some root =>
    match componentAt? root r.path with
    | none => return none
    | some text =>
      match Numeral.floatOf text with
      | some power => return some power
      | none =>
        warn "Unparsable power value "
        return none

/-- The target power of a port. -/
def target (t : Terminals) (device : String) (port : Int) : Act (Option Float) :=
  t.read device port .target

/-- The power at the output of a port. -/
def output (t : Terminals) (device : String) (port : Int) : Act (Option Float) :=
  t.read device port .output

/-- The power at the input of a port. -/
def input (t : Terminals) (device : String) (port : Int) : Act (Option Float) :=
  t.read device port .input

/-- The range of target powers of a port that has a component. -/
def targetRange? (t : Terminals) (device : String) (port : Int) : Option (Float × Float) :=
  (t.componentOf device port).map fun _ => targetRange

/-- The range of powers at the input of a port. -/
def inputRange (t : Terminals) (device : String) (port : Int) : Act (Option (Float × Float)) := do
  let r := Reading.inputRange
  match ← t.document? device port r.inner with
  | none => return none
  | some root =>
    match componentAt? root (r.path ++ ["min"]), componentAt? root (r.path ++ ["max"]) with
    | some low, some high =>
      match Numeral.floatOf low, Numeral.floatOf high with
      | some low, some high => return some (low, high)
      | _, _ => throw .unreadable
    | _, _ => return none

end Terminals

/-! ## Controls -/

/-- Who controls powers: the devices whose powers are controlled, and how a power is given to a port. -/
structure Control where
  supports : String → Bool
  set : String → Int → Component → Json → Act Bool

namespace Control

/-- A control that only takes notes, for some devices or all. -/
def notes (capable : Option (List String)) : Control where
  supports := isCapable capable
  set := fun device port component power => do
    send (.power device port component power)
    return true

/-- The terminal devices themselves. -/
def terminals (t : Terminals) : Control where
  supports := isCapable t.capable
  set := t.setTarget

end Control

end Lightpath.Power
