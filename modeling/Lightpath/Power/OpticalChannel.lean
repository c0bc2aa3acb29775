import Lightpath.Json.Writer
import Lightpath.Xml.Reader
import Lightpath.Xml.Character

/-!
# Optical channels of terminal devices

A terminal device keeps the powers of a port in an optical channel of one of its components. This module
writes the documents that ask for them and that set them, and looks into the replies.
-/

namespace Lightpath.Power

open Lightpath.Xml

/-! ## Documents -/

/-- The namespace of components. -/
def platformSpace : String := "http://openconfig.net/yang/platform"

/-- The namespace of optical channels. -/
def terminalSpace : String := "http://openconfig.net/yang/terminal-device"

/-- A document about one component: its name and some text behind it. -/
def componentText (name inner : String) : String :=
  "<components xmlns=\"" ++ platformSpace ++ "\"><component><name>" ++ escape name ++ "</name>" ++ inner
    ++ "</component></components>"

/-- An optical channel around some text. -/
def channelText (inner : String) : String :=
  "<optical-channel xmlns=\"" ++ terminalSpace ++ "\">" ++ inner ++ "</optical-channel>"

/-- The document that sets the target power of a component. -/
def targetText (name : String) (power : Json) : String :=
  componentText name (channelText
    ("<config><target-output-power>" ++ power.display ++ "</target-output-power></config>"))

/-- The filter that selects a component, or a part of its optical channel. -/
def filterText (name inner : String) : String :=
  componentText name (if inner = "" then "" else channelText inner)

/-! ## Readings -/

/-- A power that a device tells: the part of the channel to ask for, and the way to it. -/
structure Reading where
  inner : String
  path : List String
  deriving DecidableEq, Repr

/-- The target power. -/
def Reading.target : Reading :=
  ⟨"", ["optical-channel", "config", "target-output-power"]⟩

/-- The power at the output. -/
def Reading.output : Reading :=
  ⟨"<state><output-power><instant/></output-power></state>",
    ["optical-channel", "state", "output-power", "instant"]⟩

/-- The power at the input. -/
def Reading.input : Reading :=
  ⟨"<state><input-power><instant/></input-power></state>",
    ["optical-channel", "state", "input-power", "instant"]⟩

/-- The range of powers at the input that the device can take. -/
def Reading.inputRange : Reading :=
  ⟨"<state><input-power-range/></state>", ["optical-channel", "state", "input-power-range"]⟩

/-- The text that is reached in the first list of components of a document. -/
def componentAt? (root : Element) (path : List String) : Option String :=
  match (root.allNamed "components").head? with
  | none => none
  | some components => components.textAt? ("component" :: path)

/-- The range of target powers of a terminal device, in dBm. -/
def targetRange : Float × Float := (-20.0, 6.0)

end Lightpath.Power
