import Lightpath.Engine.Exchange
import Lightpath.Json.Reader
import Lightpath.PathPlan.Reply
import Lightpath.PathPlan.Request
import Lightpath.Power.Control

/-!
# Provisioning a circuit

The planner asks the engine for a plan, gives every device on the way its power and asks for the circuit.
Nothing reaches a device or the circuit service before the plan is complete.
-/

namespace Lightpath.PathPlan

open Lightpath.Site Lightpath.Topology

/-- How circuits are planned: the scheme of managed devices, the type of transceivers, who controls powers
and who knows the links of a device. -/
structure Planner where
  scheme : String
  transceiverType : String
  power : Power.Control
  adjacency : String → Act (List Link)

namespace Planner

/-! ## Decoding -/

/-- Looks up the links along some hops; a hop without a link is left out. -/
def linksAlong (p : Planner) : List (String × String) → Act (List Link)
  | [] => return []
  | hop :: rest => do
    let links ← p.adjacency hop.1
    match links.find? fun l => l.dst.device == hop.2 with
    | none =>
      warn ("No link from " ++ hop.1 ++ " to " ++ hop.2)
      p.linksAlong rest
    | some l => return l :: (← p.linksAlong rest)

/-- Decodes a reply and looks up the links along its route. -/
def decode (p : Planner) (reply : Json) (bidirectional : Bool) : Act (Option Plan) := do
  match ← yield (readReply p.scheme reply bidirectional) with
  | .unanswered =>
    warn "Can't retrieve devices "
    return none
  | .malformed =>
    complain "Malformed path computation response: "
    return none
  | .plan plan =>
    let links ← p.linksAlong (hops plan.route.devices)
    return some { plan with path := ⟨links⟩ }

/-! ## Powers -/

/-- Gives a point its power, if its device takes one and the power is known, and tells whether it did. -/
def setHopPower (p : Planner) (plan : Plan) (powers : PowerMap) (point : ConnectPoint) : Act Nat := do
  if p.power.supports point.device then
    let value := (OrderedMap.get? powers point.device).getD unknownPower
    if value == unknownPower then
      warn ("Can't determine power for " ++ point.device)
      return 0
    else
      info ("Configuring power " ++ Numeral.floatText value ++ " for " ++ point.text)
      discard (p.power.set point.device point.port (.slot plan.slot) (.float value))
      return 1
  else return 0

/-- Gives both ends of each link their powers. -/
def setLinkPowers (p : Planner) (plan : Plan) : List Link → Act Nat
  | [] => return 0
  | l :: ls => do
    let src ← p.setHopPower plan plan.route.forward l.src
    let dst ← p.setHopPower plan plan.route.backward l.dst
    return src + dst + (← p.setLinkPowers plan ls)

/-- Gives an end of the circuit the launch power, if its device takes one. -/
def setLaunchPower (p : Planner) (plan : Plan) (point : ConnectPoint) : Act Nat := do
  if p.power.supports point.device then
    info ("Configuring launch power " ++ Numeral.floatText plan.launchPower ++ " for " ++ point.text)
    discard (p.power.set point.device point.port (.direction .all) (.float plan.launchPower))
    return 1
  else return 0

/-- Gives out all powers of a plan and tells how many that were. -/
def applyPowers (p : Planner) (plan : Plan) (ingress egress : ConnectPoint) : Act Nat := do
  let inner ← p.setLinkPowers plan plan.path.links
  if plan.launchPower == unknownPower then return inner
  else
    let first ← p.setLaunchPower plan ingress
    let last ← p.setLaunchPower plan egress
    return inner + first + last

/-! ## Circuits -/

/-- The message that asks for the circuit of a plan. -/
def submission (plan : Plan) (ingress egress : ConnectPoint) (bidirectional : Json) : Event :=
  .submit ingress.text egress.text plan.slot plan.path.links bidirectional

/-- Asks for the circuit of a plan and yields its name and the expected quality. The log line about the
circuit holds the slot, so it fails on a slot that cannot be written, when the circuit is already there. -/
def submit (plan : Plan) (ingress egress : ConnectPoint) (bidirectional : Json) :
    Act (Option (String × Float)) := do
  send (submission plan ingress egress bidirectional)
  match (← get).circuits (submission plan ingress egress bidirectional) with
  | .error text =>
    complain ("Failed to establish circuit " ++ ingress.text ++ " -> " ++ egress.text ++ ": " ++ text)
    return none
  | .ok id =>
    let slot ← yield (slotText plan.slot)
    info ("Circuit " ++ id ++ " submitted over " ++ toString plan.path.links.length ++ " links on "
      ++ slot ++ ", estimated OSNR " ++ Numeral.floatText plan.osnr ++ " dB")
    return some (id, plan.osnr)

/-- Asks the engine for a plan and yields the text of its answer. -/
def ask (p : Planner) (ingress egress : ConnectPoint) (bidirectional : Json) : Act (Option String) := do
  let request ← yield (Request.between p.transceiverType ingress egress bidirectional).outcome
  try
    some <$> Engine.post request.toJson
  catch
    | .computation reason =>
      complain ("Path computation failed for " ++ ingress.text ++ " -> " ++ egress.text ++ ": " ++ reason)
      pure none
    | f => throw f

/-- Reads the text of an answer. -/
def replyIn (text : String) : Act (Option Json) := do
  match Json.parse text with
  | .error _ =>
    complain "Exception while reading response "
    return none
  | .ok reply =>
    if reply.truthy then return some reply
    else
      complain "Empty reply for response "
      return none

/-- Gives out the powers of a plan and asks for its circuit. -/
def carryOut (p : Planner) (ingress egress : ConnectPoint) (bidirectional : Json) (plan : Plan) :
    Act (Option (String × Float)) := do
  discard (p.applyPowers plan ingress egress)
  submit plan ingress egress bidirectional

/-- Carries out the plan in a reply, if there is one. -/
def followUp (p : Planner) (ingress egress : ConnectPoint) (bidirectional reply : Json) :
    Act (Option (String × Float)) := do
  match ← p.decode reply bidirectional.truthy with
  | none => return none
  | some plan => p.carryOut ingress egress bidirectional plan

/-- Follows up the reply in the text of an answer, if there is one. -/
def takeUp (p : Planner) (ingress egress : ConnectPoint) (bidirectional : Json) (text : String) :
    Act (Option (String × Float)) := do
  match ← replyIn text with
  | none => return none
  | some reply => p.followUp ingress egress bidirectional reply

/-- Provisions a circuit between two connect points and yields its name and the expected quality of its
signal. -/
def obtain (p : Planner) (ingress egress : ConnectPoint) (bidirectional : Json) :
    Act (Option (String × Float)) := do
  if !(← Engine.isConnected) then
    complain "Path computation engine is not connected"
    return none
  match ← p.ask ingress egress bidirectional with
  | none => return none
  | some text => p.takeUp ingress egress bidirectional text

end Planner

end Lightpath.PathPlan
