import Lightpath.Spectrum.Slot
import Lightpath.Topology.Link

/-!
# Plans

A plan tells the devices on the way, the power that each of them is to send in either direction, the power
at both ends, the expected quality of the signal, its slot, and the links of the way. A marker stands for a
power or a quality that is not known.
-/

namespace Lightpath.PathPlan

open Lightpath.Spectrum Lightpath.Topology

/-- The marker of an unknown power. -/
def unknownPower : Float := -99.0

/-- The marker of an unknown quality. -/
def unknownOsnr : Float := -1.0

/-- The powers of devices. -/
abbrev PowerMap := OrderedMap String Float

/-- The devices on the way and their powers in either direction. -/
structure Route where
  devices : List String
  forward : PowerMap
  backward : PowerMap
  deriving Repr

/-- A plan. -/
structure Plan where
  route : Route
  launchPower : Float
  osnr : Float
  slot : Option Slot
  path : LinkPath
  deriving Repr

/-- The record of powers. -/
def PowerMap.toJson (m : PowerMap) : Json :=
  .obj (m.map fun (device, power) => (device, .float power))

namespace Plan

/-- A plan as a record. -/
def check : Form.Check Plan :=
  Form.record fun fields =>
    (fun devices forward backward launch osnr slot path =>
        ⟨⟨devices, forward, backward⟩, launch, osnr, slot, path⟩)
      <$> fields.orElse "route" (Form.list Form.text) []
      <*> fields.orElse "forward_power" (Form.mapping Form.real) []
      <*> fields.orElse "backward_power" (Form.mapping Form.real) []
      <*> fields.orElse "launch_power" Form.real unknownPower
      <*> fields.orElse "osnr" Form.real unknownOsnr
      <*> fields.orElse "slot" (Form.orNull Slot.check) none
      <*> fields.orElse "path" LinkPath.check ⟨[]⟩

/-- The record of a plan. -/
def toJson (p : Plan) : Json :=
  .obj [("route", .arr (p.route.devices.map Json.str)),
    ("forward_power", PowerMap.toJson p.route.forward),
    ("backward_power", PowerMap.toJson p.route.backward),
    ("launch_power", .float p.launchPower), ("osnr", .float p.osnr),
    ("slot", match p.slot with | some s => s.toJson | none => .null), ("path", p.path.toJson)]

end Plan

/-! ## Links of a route -/

/-- The pairs of neighbours on a route. -/
def hops (devices : List String) : List (String × String) :=
  devices.zip devices.tail

/-- The first link of a device that ends on the next one. -/
def linkFor? (linksOf : String → List Link) (hop : String × String) : Option Link :=
  (linksOf hop.1).find? fun l => l.dst.device == hop.2

/-- The links along some hops; a hop without a link is left out. -/
def pathAlong (linksOf : String → List Link) (hops : List (String × String)) : LinkPath :=
  ⟨hops.filterMap (linkFor? linksOf)⟩

/-- The hops of a route that is given as a value: only texts name devices. -/
def hopsOfJson : Json → Outcome (List (String × String))
  | .obj _ => .error .wrongKind
  | v => do
    let names ← v.elements
    return (names.zip names.tail).filterMap fun
      | (.str u, .str v) => some (u, v)
      | _ => none

end Lightpath.PathPlan
