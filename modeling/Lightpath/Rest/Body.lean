import Lightpath.CrossConnect.Order
import Lightpath.Topology.ConnectPoint

/-!
# Bodies of requests and answers

The records that the controller's interface takes and gives, beside those of cross-connects and slots.
-/

namespace Lightpath.Rest

open Lightpath.Topology

/-! ## Requests -/

/-- A request to add or to drop a cross-connect. -/
structure CrossConnectRequest where
  device : String
  srcPort : Int
  dstPort : Int
  frequencyMHz : Int
  slotWidthGHz : Float
  deriving Repr

namespace CrossConnectRequest

/-- A request for a cross-connect as a record. Frequency and width must not be below or at zero. -/
def check : Form.Check CrossConnectRequest :=
  Form.record fun fields =>
    mk <$> fields.required "device_id" Form.text
      <*> fields.required "src_port" Form.whole
      <*> fields.required "dst_port" Form.whole
      <*> fields.required "frequency_mhz" (fun v => (Form.whole v).ensure (0 < ·) .rule)
      <*> fields.required "slot_width_ghz" (fun v => (Form.real v).ensure (fun x => !(x ≤ 0)) .rule)

/-- The record of a request for a cross-connect. -/
def toJson (r : CrossConnectRequest) : Json :=
  .obj [("device_id", .str r.device), ("src_port", .int r.srcPort), ("dst_port", .int r.dstPort),
    ("frequency_mhz", .int r.frequencyMHz), ("slot_width_ghz", .float r.slotWidthGHz)]

/-- The order that a request stands for. -/
def order (r : CrossConnectRequest) : CrossConnect.Order :=
  ⟨r.device, .int r.srcPort, .int r.dstPort, .int r.frequencyMHz, .float r.slotWidthGHz⟩

end CrossConnectRequest

/-- A request for a circuit between two connect points. -/
structure ConnectivityRequest where
  ingress : String
  egress : String
  bidirectional : Bool
  deriving Repr

namespace ConnectivityRequest

/-- A text that can be read as a connect point. -/
def point : Form.Check String := fun v =>
  (Form.text v).ensure (fun s => (ConnectPoint.parse s).toOption.isSome) .rule

/-- A request for a circuit as a record. -/
def check : Form.Check ConnectivityRequest :=
  Form.record fun fields =>
    mk <$> fields.required "ingress" point
      <*> fields.required "egress" point
      <*> fields.orElse "bidirectional" Form.truth false

/-- The record of a request for a circuit. -/
def toJson (r : ConnectivityRequest) : Json :=
  .obj [("ingress", .str r.ingress), ("egress", .str r.egress), ("bidirectional", .bool r.bidirectional)]

end ConnectivityRequest

/-- A request to connect to a path computation engine. -/
structure EngineRequest where
  protocol : String
  host : String
  port : Int
  username : Option String
  password : Option String
  deriving Repr

namespace EngineRequest

/-- A request to connect to an engine as a record. -/
def check : Form.Check EngineRequest :=
  Form.record fun fields =>
    mk <$> fields.orElse "protocol" Form.text "http"
      <*> fields.required "host" Form.text
      <*> fields.required "port" Form.whole
      <*> fields.orElse "username" (Form.orNull Form.text) none
      <*> fields.orElse "password" (Form.orNull Form.text) none

/-- The record of a request to connect to an engine. -/
def toJson (r : EngineRequest) : Json :=
  .obj [("protocol", .str r.protocol), ("host", .str r.host), ("port", .int r.port),
    ("username", .ofOption r.username), ("password", .ofOption r.password)]

end EngineRequest

/-! ## Answers -/

/-- A circuit that was asked for, with the expected quality of its signal. -/
structure Connectivity where
  circuit : String
  osnr : Float
  deriving Repr

namespace Connectivity

/-- A circuit as a record. -/
def check : Form.Check Connectivity :=
  Form.record fun fields =>
    mk <$> fields.required "circuit_id" Form.text <*> fields.required "osnr" Form.real

/-- The record of a circuit. -/
def toJson (c : Connectivity) : Json :=
  .obj [("circuit_id", .str c.circuit), ("osnr", .float c.osnr)]

end Connectivity

/-- The powers of a port. -/
structure PortPower where
  device : String
  port : Int
  target : Option Float
  output : Option Float
  input : Option Float
  targetRange : Option (Float × Float)
  inputRange : Option (Float × Float)
  deriving Repr

namespace PortPower

/-- A range as a value, or null. -/
def rangeToJson : Option (Float × Float) → Json
  | some (low, high) => .arr [.float low, .float high]
  | none => .null

/-- The powers of a port as a record. -/
def check : Form.Check PortPower :=
  Form.record fun fields =>
    mk <$> fields.required "device_id" Form.text
      <*> fields.required "port" Form.whole
      <*> fields.orElse "target_power" (Form.orNull Form.real) none
      <*> fields.orElse "output_power" (Form.orNull Form.real) none
      <*> fields.orElse "input_power" (Form.orNull Form.real) none
      <*> fields.orElse "target_power_range" (Form.orNull (Form.pair Form.real)) none
      <*> fields.orElse "input_power_range" (Form.orNull (Form.pair Form.real)) none

/-- The record of the powers of a port. -/
def toJson (p : PortPower) : Json :=
  .obj [("device_id", .str p.device), ("port", .int p.port), ("target_power", .ofFloat? p.target),
    ("output_power", .ofFloat? p.output), ("input_power", .ofFloat? p.input),
    ("target_power_range", rangeToJson p.targetRange), ("input_power_range", rangeToJson p.inputRange)]

end PortPower

/-- How the controller is. -/
structure Health where
  status : String
  controllerId : String
  engineConnected : Bool
  linkStoreConnected : Bool
  version : String
  deriving DecidableEq, Repr

namespace Health

/-- The state of the controller as a record. -/
def check : Form.Check Health :=
  Form.record fun fields =>
    mk <$> fields.required "status" Form.text
      <*> fields.required "controller_id" Form.text
      <*> fields.required "pce_connected" Form.truth
      <*> fields.orElse "linkdb_connected" Form.truth false
      <*> fields.required "version" Form.text

/-- The record of the state of the controller. -/
def toJson (h : Health) : Json :=
  .obj [("status", .str h.status), ("controller_id", .str h.controllerId),
    ("pce_connected", .bool h.engineConnected), ("linkdb_connected", .bool h.linkStoreConnected),
    ("version", .str h.version)]

end Health

end Lightpath.Rest
