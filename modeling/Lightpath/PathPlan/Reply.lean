import Lightpath.PathPlan.Plan
import Lightpath.Spectrum.Quantity

/-!
# Replies of the path computation engine

A reply may have any shape. Each part of a plan is looked for at its place, and the first thing that is not
as it should be ends the search with its cause.
-/

namespace Lightpath.PathPlan

open Lightpath.Spectrum Lightpath.Numeral

/-! ## Places in a reply -/

/-- Whether a reply is a record with a response in its result. -/
def hasResponse : Json → Outcome Bool
  | .obj fields =>
    let result := (OrderedMap.get? fields "result").getD .null
    if result.truthy then result.holds "response" else .ok false
  | _ => .ok false

/-- The properties of the path of the first response. -/
def pathProperties (reply : Json) : Outcome Json := do
  (← (← (← reply.item "result").item "response").first).item "path-properties"

/-- The route objects of the forward path. -/
def forwardObjects (properties : Json) : Outcome Json :=
  properties.item "path-route-objects"

/-- The part of a name in a route object, null if it has none. -/
def partOf (object : Json) (name : String) : Outcome Json := do
  (← object.item "path-route-object").lookup name

/-! ## Powers -/

/-- The power that a route object tells. -/
def perHopPower (object : Json) : Outcome Float := do
  match ← partOf object "target-channel-power" with
  | .null => return unknownPower
  | target => (← target.item "value").toFloat

/-- The power of the hop in front of some route objects, which the second one behind it tells. -/
def powerAfter : List Json → Outcome Float
  | _ :: object :: _ => perHopPower object
  | _ => .ok unknownPower

/-! ## The route -/

/-- A hop of a managed device. -/
structure Hop where
  device : String
  isTransceiver : Bool
  deriving DecidableEq, Repr

/-- The power of a hop in front of some route objects; a transceiver's is not known. -/
def Hop.power (h : Hop) (after : List Json) : Outcome Float :=
  if h.isTransceiver then .ok unknownPower else powerAfter after

/-- The hop in a route object, if its device belongs to the scheme. -/
def hopIn? (scheme : String) (object : Json) : Outcome (Option Hop) := do
  match ← partOf object "num-unnum-hop" with
  | .null => return none
  | hop =>
    match ← hop.item "node-id" with
    | .str device =>
      if scheme.toList.isPrefixOf device.toList then
        return some ⟨device, (← hop.lookup "gnpy-node-type").isText "transceiver"⟩
      else return none
    | _ => .error .missingOperation

/-- Whether a route object is a hop of a device. -/
def names (object : Json) (device : String) : Outcome Bool := do
  match ← partOf object "num-unnum-hop" with
  | .null => return false
  | hop => return (← hop.item "node-id").isText device

/-- Enters the power of a hop for each reverse route object but the last that names its device. -/
def enterBackward (h : Hop) : List Json → PowerMap → Outcome PowerMap
  | object :: next :: rest, m => do
    if ← names object h.device then
      enterBackward h (next :: rest) (OrderedMap.put m h.device (← h.power (next :: rest)))
    else enterBackward h (next :: rest) m
  | _, m => .ok m

/-- Follows the forward route objects but the last. The reverse ones are looked at only for the sake of a
managed hop. -/
def follow (scheme : String) (reverse : Json) : List Json → Route → Outcome Route
  | object :: next :: rest, r => do
    match ← hopIn? scheme object with
    | none => follow scheme reverse (next :: rest) r
    | some h =>
      let power ← h.power (next :: rest)
      let backward ← enterBackward h (← reverse.positions) r.backward
      follow scheme reverse (next :: rest)
        ⟨r.devices ++ [h.device], OrderedMap.put r.forward h.device power, backward⟩
  | _, r => .ok r

/-- The reverse route objects: none unless both directions are planned. -/
def reverseObjects (properties : Json) (bidirectional : Bool) : Outcome Json := do
  if bidirectional then
    let objects ← properties.lookup "reversed-path-route-objects"
    return if objects.truthy then objects else .arr []
  else return .arr []

/-- The route of a reply. -/
def routeOf (scheme : String) (reply : Json) (bidirectional : Bool) : Outcome Route := do
  let properties ← pathProperties reply
  let forward ← forwardObjects properties
  let reverse ← reverseObjects properties bidirectional
  follow scheme reverse (← forward.positions) ⟨[], [], []⟩

/-! ## The slot -/

/-- The step that labels count, in GHz. -/
def labelStep : Decimal := .finite false 5 (-2)

/-- The slot that a label stands for: so many steps from the anchor, four units wide. -/
def slotOfLabel (n : Int) : Outcome Slot := do
  let central ← decimalOutcome do (anchorGHz .dwdm).add (← (Decimal.ofInt n).mul labelStep)
  let multiplier ← decimalOutcome (multiplierOf central .dwdm .ghz50)
  return ⟨.dwdm, .ghz50, multiplier, 4⟩

/-- The label of the first route object that has one, else zero. -/
def labelOf : List Json → Outcome Int
  | [] => .ok 0
  | object :: rest => do
    match ← partOf object "label-hop" with
    | .null => labelOf rest
    | label => (← label.item "N").toWhole

/-- The slot of a reply, if it has a response. -/
def slotOf (reply : Json) : Outcome (Option Slot) := do
  if ← hasResponse reply then
    let objects ← forwardObjects (← pathProperties reply)
    return some (← slotOfLabel (← labelOf (← objects.elements)))
  else return none

/-! ## Metrics -/

/-- The value of the first metric of a kind, if there is one. -/
def metricIn (kind : String) (default : Float) : List Json → Outcome Float
  | [] => .ok default
  | metric :: rest => do
    if (← metric.lookup "metric-type").isText kind then (← metric.item "accumulative-value").toFloat
    else metricIn kind default rest

/-- The metrics among the properties of a path, which may have none. -/
def metricsOf : Json → Outcome (List Json)
  | .obj fields => ((OrderedMap.get? fields "path-metric").getD (.arr [])).elements
  | _ => .error .missingOperation

/-- A metric of a reply. -/
def metricOf (kind : String) (default : Float) (reply : Json) : Outcome Float := do
  if ← hasResponse reply then metricIn kind default (← metricsOf (← pathProperties reply))
  else return default

/-- The power at both ends. -/
def launchPowerOf : Json → Outcome Float := metricOf "reference_power" unknownPower

/-- The expected quality of the signal. -/
def osnrOf : Json → Outcome Float := metricOf "OSNR-0.1nm" unknownOsnr

/-! ## Whole replies -/

/-- What a reply is read as: no response at all, a response that cannot be used, or a plan, still without
its links. -/
inductive Reading where
  | unanswered
  | malformed
  | plan (p : Plan)
  deriving Repr

/-- Whether a failure only tells that a reply does not have the shape of a plan. -/
def isShapeFault : Failure → Bool
  | .missingOperation => true
  | .missingKey => true
  | .missingPosition => true
  | .wrongKind => true
  | .unreadable => true
  | _ => false

/-- The plan in a reply, without its links. -/
def planIn (scheme : String) (reply : Json) (bidirectional : Bool) : Outcome Plan := do
  let slot ← slotOf reply
  let route ← routeOf scheme reply bidirectional
  let launch ← launchPowerOf reply
  let osnr ← osnrOf reply
  return ⟨route, launch, osnr, slot, ⟨[]⟩⟩

/-- Reads a reply. -/
def readReply (scheme : String) (reply : Json) (bidirectional : Bool) : Outcome Reading := do
  if ← hasResponse reply then
    match planIn scheme reply bidirectional with
    | .ok p => return .plan p
    | .error f => if isShapeFault f then return .malformed else throw f
  else return .unanswered

/-- The links along the route of a plan. -/
def Plan.withLinks (linksOf : String → List Topology.Link) (p : Plan) : Plan :=
  { p with path := pathAlong linksOf (hops p.route.devices) }

end Lightpath.PathPlan
