import Lightpath.Controller.Services
import Lightpath.Json.Reader
import Lightpath.Rest.Body
import Lightpath.Rest.Route

/-!
# Answering requests

A request is answered in steps, and the first that refuses it decides: the path, the method, the syntax of
the body, the services that the route needs, the contents of the path and of the body, and at last the
operation itself. An operation that fails in a way that nobody foresaw is answered without a word about it.
-/

namespace Lightpath.Rest

open Lightpath.Site Lightpath.Controller Lightpath.Topology

/-! ## Requests and replies -/

/-- A request. -/
structure Request where
  method : String
  address : String
  body : Option String
  deriving DecidableEq, Repr

/-- What a reply holds. -/
inductive Content where
  | json (v : Json)
  | text (s : String)
  | issues (is : List Form.Issue)
  | nothing
  deriving Repr

/-- A reply. -/
structure Reply where
  status : Nat
  content : Content
  deriving Repr

/-- A step that may answer the request already. -/
abbrev Handling := ExceptT Reply Act

/-- A reply with a value. -/
def accepted (status : Nat) (v : Json) : Reply :=
  ⟨status, .json v⟩

/-- A reply that tells why the request is refused. -/
def refused (status : Nat) (detail : String) : Reply :=
  ⟨status, .json (.obj [("detail", .str detail)])⟩

/-- A reply that tells what is wrong with the request. -/
def faulty (issues : List Form.Issue) : Reply :=
  ⟨422, .issues issues⟩

mutual

/-- A value with null in place of each number that is not finite. -/
def finiteOnly : Json → Json
  | .float x => if (Numeral.parts x).isFinite then .float x else .null
  | .arr items => .arr (finiteItems items)
  | .obj fields => .obj (finiteFields fields)
  | v => v

/-- The items of a list with null in place of each number that is not finite. -/
def finiteItems : List Json → List Json
  | [] => []
  | v :: vs => finiteOnly v :: finiteItems vs

/-- The fields of an object with null in place of each number that is not finite. -/
def finiteFields : List (String × Json) → List (String × Json)
  | [] => []
  | (k, v) :: fs => (k, finiteOnly v) :: finiteFields fs

end

/-! ## Refusals -/

/-- Stops with a reply. -/
def refuse {α : Type} (r : Reply) : Handling α :=
  throw r

/-- The value of an operation that may yield none, or else a refusal. -/
def orRefuse {α : Type} (status : Nat) (detail : String) : Option α → Handling α
  | some a => pure a
  | none => refuse (refused status detail)

/-- The value of a check, or else what is wrong. -/
def orFaulty {α : Type} : Form.Checked α → Handling α
  | .ok a => pure a
  | .bad is => refuse (faulty is)

/-- The body as a value, null if there is none; or the reply to a text that is no value. -/
def bodyOf (r : Request) : Except Reply Json :=
  match r.body with
  | none => .ok .null
  | some "" => .ok .null
  | some s =>
    let text := match s.toList with
      | '\uFEFF' :: rest => String.ofList rest
      | _ => s
    match Json.parse text with
    | .ok v => .ok v
    | .error (.malformed offset) =>
      .error (faulty [⟨[.field "body", .position offset], .jsonInvalid⟩])
    | .error .hugeNumber => .error (refused 400 "There was an error parsing the body")

/-- Reads the body of a request. -/
def readBody (r : Request) : Handling Json :=
  match bodyOf r with
  | .ok v => pure v
  | .error reply => refuse reply

/-- What a body is checked to be. -/
def checkedBody {α : Type} (check : Form.Check α) (body : Json) : Form.Checked α :=
  let checked := match body with
    | .null => Form.Checked.fail .missing
    | .obj _ => check body
    | _ => Form.Checked.fail .bodyType
  checked.under (.field "body")

/-- Checks the body of a request. -/
def checkBody {α : Type} (check : Form.Check α) (body : Json) : Handling α :=
  orFaulty (checkedBody check body)

/-- The services, which have to be there. -/
def needServices (services : Option Services) : Handling Services :=
  orRefuse 503 "Controller components are not initialized" services

/-- The planner, which has to have a session to the engine. -/
def needEngine (services : Option Services) : Handling PathPlan.Planner := do
  let s ← needServices services
  if ← Engine.isConnected then return s.planner
  else refuse (refused 503 "Path computation engine is not connected")

/-- The terminal devices, which have to be there. -/
def needTerminals (services : Option Services) : Handling Power.Terminals := do
  let s ← needServices services
  orRefuse 404 "OpenConfig power configuration is not enabled" s.terminals

/-! ## Operations -/

/-- What the interface is and where more about it is found. -/
def root (settings : Settings) : Reply :=
  accepted 200 (.obj [("service", .str settings.apiTitle), ("version", .str settings.apiVersion),
    ("controller_id", .str settings.controllerId), ("docs", .str (apiAddress settings ++ "/docs")),
    ("health", .str (apiAddress settings ++ "/api/v1/health"))])

/-- How the controller is. -/
def health (settings : Settings) (s : Services) : Act Reply := do
  let engine ← Engine.isConnected
  let store ← if s.hasLinkStore then LinkStore.isHealthy else pure false
  let status := if engine then "healthy" else "degraded"
  return accepted 200 (Health.toJson ⟨status, settings.controllerId, engine, store, settings.apiVersion⟩)

/-- Adds a cross-connect. -/
def addCrossConnect (s : Services) (r : CrossConnectRequest) : Handling Reply := do
  let rule ← orRefuse 502 ("Device " ++ r.device ++ " did not accept the cross-connect")
    (← r.order.add s.reconciler)
  return accepted 201 rule.toJson

/-- Drops a cross-connect. -/
def dropCrossConnect (s : Services) (r : CrossConnectRequest) : Handling Reply := do
  let rule ← orRefuse 404 ("No matching cross-connect on " ++ r.device) (← r.order.drop s.reconciler)
  return accepted 200 rule.toJson

/-- Lists the cross-connects of a device. -/
def crossConnects (s : Services) (device : String) : Handling Reply := do
  let entries ← orRefuse 502 ("Cannot read cross-connects from " ++ device)
    (← s.reconciler.query device none)
  return accepted 200 (.arr (entries.map CrossConnect.Entry.toJson))

/-- Lists the channels of a coherent terminal device. -/
def lambdas : Reply :=
  accepted 200 (.arr ((Spectrum.lambdas Spectrum.lambdaCount Spectrum.lambdaStartGHz).map
    Spectrum.Slot.toJson))

/-- Reads the powers of a port. -/
def portPower (t : Power.Terminals) (device : String) (port : Int) : Handling Reply := do
  let range ← orRefuse 404 ("Port " ++ Power.portText device port ++ " has no optical-channel component")
    (t.targetRange? device port)
  let target ← t.target device port
  let output ← t.output device port
  let input ← t.input device port
  let inputRange ← t.inputRange device port
  return accepted 200 (PortPower.toJson ⟨device, port, target, output, input, some range, inputRange⟩)

/-- Provisions a circuit. -/
def connectivity (p : PathPlan.Planner) (r : ConnectivityRequest) : Handling Reply := do
  let ingress ← (yield (ConnectPoint.parse r.ingress) : Act ConnectPoint)
  let egress ← (yield (ConnectPoint.parse r.egress) : Act ConnectPoint)
  let (circuit, osnr) ← orRefuse 502 ("Provisioning " ++ r.ingress ++ " -> " ++ r.egress ++ " failed")
    (← p.obtain ingress egress (.bool r.bidirectional))
  return accepted 201 (Connectivity.toJson ⟨circuit, osnr⟩)

/-- Tells whether a session to the engine is open. -/
def tellConnected : Act Reply := do
  return accepted 200 (.obj [("connected", .bool (← Engine.isConnected))])

/-! ## Routes -/

/-- Answers a request on a route. -/
def onRoute (settings : Settings) (services : Option Services) (r : Request) : Route → Handling Reply
  | .root => return root settings
  | .health => do health settings (← needServices services)
  | .addCrossConnect => do
    let body ← readBody r
    let s ← needServices services
    addCrossConnect s (← checkBody CrossConnectRequest.check body)
  | .dropCrossConnect => do
    let body ← readBody r
    let s ← needServices services
    dropCrossConnect s (← checkBody CrossConnectRequest.check body)
  | .crossConnects device => do crossConnects (← needServices services) device
  | .device name => do
    discard (needServices services)
    CrossConnect.Reconciler.deviceRemoved name
    return ⟨204, .nothing⟩
  | .lambdas _ => return lambdas
  | .portPower device port => do
    let t ← needTerminals services
    let port ← orFaulty (((Form.whole (.str port)).under (.field "port")).under (.field "path"))
    portPower t device port
  | .connectivity => do
    let body ← readBody r
    let p ← needEngine services
    connectivity p (← checkBody ConnectivityRequest.check body)
  | .connectEngine => do
    let body ← readBody r
    discard (needServices services)
    let e ← checkBody EngineRequest.check body
    Engine.connect settings e.protocol e.host e.port e.username e.password
    tellConnected
  | .disconnectEngine => do
    discard (needServices services)
    Engine.disconnect
    tellConnected

/-- The reply of a handling, whether it went through or stopped. -/
def replyOf (h : Handling Reply) : Act Reply := do
  match ← h.run with
  | .ok reply => return reply
  | .error reply => return reply

/-- The reply to a request with a method in upper case. -/
def dispatch (settings : Settings) (services : Option Services) (r : Request) : Act Reply := do
  match Route.ofAddress r.address with
  | none => return refused 404 "Not Found"
  | some route =>
    if r.method ≠ route.method then return refused 405 "Method Not Allowed"
    else
      try
        replyOf (onRoute settings services r route)
      catch
        | _ => return ⟨500, .text "Internal Server Error"⟩

/-- Answers a request. The reply to a request for the head alone holds nothing. -/
def handle (settings : Settings) (services : Option Services) (r : Request) : Act Reply := do
  let method := r.method.map Char.toUpper
  let reply ← dispatch settings services { r with method := method }
  return if method = "HEAD" then { reply with content := .nothing } else reply

/-- A step of a way as a value. -/
def stepValue : Form.Step → Json
  | .field name => .str name
  | .position n => .int n

/-- An issue as a value. -/
def issueValue (i : Form.Issue) : Json :=
  .obj [("loc", .arr (i.path.map stepValue)), ("type", .str i.fault.label)]

/-- The value that a reply carries, with null for numbers that are not finite. -/
def Content.value : Content → Json
  | json v => finiteOnly v
  | text s => .str s
  | issues is => .arr (is.map issueValue)
  | nothing => .null

end Lightpath.Rest
