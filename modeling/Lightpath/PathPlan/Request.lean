import Lightpath.Topology.ConnectPoint

/-!
# Requests to the path computation engine

A request names the devices at both ends and the transceivers between which light is to go. Whatever is left
to the engine is written as null.
-/

namespace Lightpath.PathPlan

open Lightpath.Topology

/-! ## Constraints -/

/-- A bound on a slot: a number, a text or nothing. -/
inductive Bound where
  | number (n : Int)
  | text (s : String)
  | free
  deriving DecidableEq, Repr

/-- A bound as a value: null is none, strings are kept, and all that counts as a whole number is one. -/
def Bound.check : Form.Check Bound
  | .null => .ok free
  | .str s => .ok (text s)
  | v =>
    match (Form.whole v).under (.field "int") with
    | .ok n => .ok (number n)
    | .bad is => .bad (is ++ [⟨[.field "str"], .stringType⟩])

/-- The value of a bound. -/
def Bound.toJson : Bound → Json
  | number n => .int n
  | text s => .str s
  | free => .null

/-- Bounds on the position and on the width of a slot. -/
structure SlotConstraint where
  n : Bound
  m : Bound
  deriving DecidableEq, Repr

namespace SlotConstraint

/-- No bound at all, as the engine wants it written. -/
def free : SlotConstraint := ⟨.text "null", .text "null"⟩

/-- Bounds as a record. -/
def check : Form.Check SlotConstraint :=
  Form.record fun fields =>
    mk <$> fields.orElseAs "N" "n" Bound.check (.text "null")
      <*> fields.orElseAs "M" "m" Bound.check (.text "null")

/-- The record of bounds. -/
def toJson (c : SlotConstraint) : Json :=
  .obj [("N", c.n.toJson), ("M", c.m.toJson)]

end SlotConstraint

/-- What is asked of the spectrum. -/
structure Bandwidth where
  technology : String
  transceiverType : String
  transceiverMode : Option String
  slots : List SlotConstraint
  spacing : Float
  maxChannels : Option Int
  outputPower : Option Float
  bandwidth : Float
  deriving Repr

namespace Bandwidth

/-- Nothing is asked but the type of the transceivers. -/
def unconstrained (transceiverType : String) : Bandwidth :=
  ⟨"flexi-grid", transceiverType, none, [.free], 50000000000.0, none, none, 100000000000.0⟩

/-- A bandwidth as a record. -/
def check : Form.Check Bandwidth :=
  Form.record fun fields =>
    mk <$> fields.orElse "technology" Form.text "flexi-grid"
      <*> fields.required "trx_type" Form.text
      <*> fields.orElse "trx_mode" (Form.orNull Form.text) none
      <*> fields.orElseAs "effective-freq-slot" "effective_freq_slot" (Form.list SlotConstraint.check)
        [.free]
      <*> fields.orElse "spacing" Form.real 50000000000.0
      <*> fields.orElseAs "max-nb-of-channel" "max_nb_of_channel" (Form.orNull Form.whole) none
      <*> fields.orElseAs "output-power" "output_power" (Form.orNull Form.real) none
      <*> fields.orElse "path_bandwidth" Form.real 100000000000.0

/-- The record of a bandwidth. -/
def toJson (b : Bandwidth) : Json :=
  .obj [("technology", .str b.technology), ("trx_type", .str b.transceiverType),
    ("trx_mode", .ofOption b.transceiverMode),
    ("effective-freq-slot", .arr (b.slots.map SlotConstraint.toJson)),
    ("spacing", .float b.spacing),
    ("max-nb-of-channel", match b.maxChannels with | some n => .int n | none => .null),
    ("output-power", .ofFloat? b.outputPower), ("path_bandwidth", .float b.bandwidth)]

end Bandwidth

/-- What is asked of a path. -/
structure Constraints where
  bandwidth : Bandwidth
  deriving Repr

namespace Constraints

/-- Constraints as a record. -/
def check : Form.Check Constraints :=
  Form.record fun fields =>
    mk <$> fields.requiredAs "te-bandwidth" "te_bandwidth" Bandwidth.check

/-- The record of constraints. -/
def toJson (c : Constraints) : Json :=
  .obj [("te-bandwidth", c.bandwidth.toJson)]

end Constraints

/-! ## Requests -/

/-- A request for one path. -/
structure Item where
  id : String
  source : String
  destination : String
  sourcePoint : String
  destinationPoint : String
  bidirectional : Bool
  constraints : Constraints
  deriving Repr

namespace Item

/-- A request for one path as a record. -/
def check : Form.Check Item :=
  Form.record fun fields =>
    mk <$> fields.orElseAs "request-id" "request_id" Form.text "test"
      <*> fields.required "source" Form.text
      <*> fields.required "destination" Form.text
      <*> fields.requiredAs "src-tp-id" "src_tp_id" Form.text
      <*> fields.requiredAs "dst-tp-id" "dst_tp_id" Form.text
      <*> fields.required "bidirectional" Form.truth
      <*> fields.requiredAs "path-constraints" "path_constraints" Constraints.check

/-- The record of a request for one path. -/
def toJson (i : Item) : Json :=
  .obj [("request-id", .str i.id), ("source", .str i.source), ("destination", .str i.destination),
    ("src-tp-id", .str i.sourcePoint), ("dst-tp-id", .str i.destinationPoint),
    ("bidirectional", .bool i.bidirectional), ("path-constraints", i.constraints.toJson)]

end Item

/-- A request to the engine. -/
structure Request where
  items : List Item
  deriving Repr

namespace Request

/-- A request as a record. -/
def check : Form.Check Request :=
  Form.record fun fields =>
    mk <$> fields.requiredAs "path-request" "path_request" (Form.list Item.check)

/-- The record of a request. -/
def toJson (r : Request) : Json :=
  .obj [("path-request", .arr (r.items.map Item.toJson))]

/-- The request for a path between two connect points; the ports do not count for the engine. -/
def between (transceiverType : String) (ingress egress : ConnectPoint) (bidirectional : Json) :
    Form.Checked Request :=
  ((Form.truth bidirectional).under (.field "bidirectional")).map fun both =>
    ⟨[⟨"test", ingress.device, egress.device, ingress.device, egress.device, both,
      ⟨.unconstrained transceiverType⟩⟩]⟩

end Request

end Lightpath.PathPlan
