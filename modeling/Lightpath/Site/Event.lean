import Lightpath.Engine.Client
import Lightpath.Topology.Link
import Lightpath.Spectrum.Slot

/-!
# What the surroundings see

Every message that the controller sends to a device, to the engine, to the link database or to the circuit
service, in the order in which they are sent. Opening and closing a session to the engine are messages as well.
-/

namespace Lightpath.Site

open Lightpath.Spectrum Lightpath.Topology Lightpath.Engine

/-- The direction in which a power counts. -/
inductive Direction where
  | all
  | ingress
  | egress
  deriving DecidableEq, Repr

/-- The name of a direction. -/
def Direction.name : Direction → String
  | .all => "ALL"
  | .ingress => "INGRESS"
  | .egress => "EGRESS"

/-- Every direction with its name. -/
def Direction.names : List (String × Direction) :=
  [.all, .ingress, .egress].map fun d => (d.name, d)

/-- What a power belongs to: a direction of a port, or the slot of a channel, if there is one. -/
inductive Component where
  | direction (d : Direction)
  | slot (s : Option Slot)
  deriving DecidableEq, Repr

/-- The text of a slot that may be missing, as far as it can be written. -/
def slotText : Option Slot → Outcome String
  | some s => s.written
  | none => .ok "None"

/-- The text of a component in log lines, as far as it can be written. -/
def Component.label : Component → Outcome String
  | .direction d => .ok ("Direction." ++ d.name)
  | .slot s => slotText s

/-- A message to the surroundings. -/
inductive Event where
  /-- a device is asked for data -/
  | read (device filter : String)
  /-- a device is asked to change its configuration -/
  | edit (device operation config : String)
  /-- a target power is given to a power control -/
  | power (device : String) (port : Int) (component : Component) (value : Json)
  /-- a circuit is asked for -/
  | submit (ingress egress : String) (slot : Option Slot) (links : List Link) (bidirectional : Json)
  /-- the link database is asked for a sign of life -/
  | ping
  /-- fields of a hash are given values -/
  | putFields (key : String) (fields : List (String × String))
  /-- a member is put into a set -/
  | addMember (key member : String)
  /-- the collected changes are carried out -/
  | execute
  /-- the link database is closed -/
  | close
  /-- a client of the link database is made -/
  | openStore (host : String) (port : Int) (password : Option String)
  /-- a session to the engine at an address is opened, with credentials or without -/
  | openSession (url : String) (credentials : Option Credentials)
  /-- the session to the engine at an address is closed -/
  | closeSession (url : String)
  /-- a request is sent to the engine -/
  | request (url : String) (authorization : Option String) (timeout : Float) (body : Json)
  /-- the controller's own interface is served -/
  | serve (title host : String) (port : Int)
  deriving Repr

end Lightpath.Site
