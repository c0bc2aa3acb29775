import Lightpath.CrossConnect.Reconciler
import Lightpath.LinkStore.Adjacency
import Lightpath.PathPlan.Planner

/-!
# The services of a controller

A controller is put together from its settings and from what its host platform gives: the types of devices,
a control of powers or the components of terminal devices. This module also starts it and shuts it down.
-/

namespace Lightpath.Controller

open Lightpath.Site Lightpath.CrossConnect Lightpath.PathPlan Lightpath.Power

/-! ## Parts -/

/-- A text that is given and not empty, or else another one. -/
def nonEmptyOr (given : Option String) (other : String) : String :=
  match given with
  | none => other
  | some "" => other
  | some s => s

/-- The reconciler of the settings, with other values where they are given. -/
def reconcilerOf (settings : Settings) (inventory : Option (String → DeviceType))
    (commonPort : Option Int) (portFront dataSpace : Option String) : Reconciler :=
  ⟨commonPort.getD settings.commonPort, portFront.getD settings.portFront,
    nonEmptyOr dataSpace settings.dataSpace, inventory⟩

/-- The planner of the settings, with other values where they are given. Links are looked up in the link
database. -/
def plannerOf (settings : Settings) (power : Control) (scheme transceiverType : Option String) : Planner :=
  ⟨nonEmptyOr scheme settings.deviceScheme, nonEmptyOr transceiverType settings.transceiverType, power,
    LinkStore.deviceLinks⟩

/-- The services of a controller. -/
structure Services where
  reconciler : Reconciler
  planner : Planner
  terminals : Option Terminals
  hasLinkStore : Bool

/-- What the host platform gives. -/
structure Host where
  inventory : String → DeviceType
  power : Option Control
  terminals : Option Terminals
  hasLinkStore : Bool

/-- The control of powers that the host platform gives: its own, or else its terminal devices. -/
def Host.control? (h : Host) : Option Control :=
  match h.power with
  | some c => some c
  | none => h.terminals.map Control.terminals

/-- Makes a client of the link database from the settings and connects it. -/
def openLinkStore (settings : Settings) : Act Unit := do
  send (.openStore settings.linkStoreHost settings.linkStorePort settings.linkStorePassword)
  LinkStore.connect settings

/-- Puts the services together. A link database that the host does not give is connected. -/
def build (settings : Settings) (h : Host) : Act Services := do
  match h.control? with
  | none => throw .noPowerControl
  | some control =>
    if !h.hasLinkStore then openLinkStore settings
    return ⟨reconcilerOf settings (some h.inventory) none none none, plannerOf settings control none none,
      h.terminals, true⟩

/-! ## Running -/

/-- The address of the controller's own interface. -/
def apiAddress (settings : Settings) : String :=
  "http://" ++ settings.apiHost ++ ":" ++ toString settings.apiPort

/-- Connects the engine of the settings, if there is one and no session is open. -/
def connectConfigured (settings : Settings) (services : Option Services) : Act Unit := do
  if settings.engineHost ≠ "" then
    if services.isNone then throw .missingOperation
    if !(← Engine.isConnected) then
      Engine.connect settings settings.engineProtocol settings.engineHost settings.enginePort
        settings.engineUsername settings.enginePassword

/-- Starts a controller, and connects its engine. -/
def startUp (settings : Settings) (services : Option Services) : Act Unit := do
  info ("Starting " ++ settings.apiTitle ++ " " ++ settings.controllerId)
  info ("API: " ++ apiAddress settings)
  connectConfigured settings services
  info "Controller ready to accept requests"

/-- Shuts a controller down: no session stays open. -/
def shutDown (services : Option Services) : Act Unit := do
  info "Shutting down controller..."
  match services with
  | none => throw .missingOperation
  | some s =>
    Engine.disconnect
    if s.hasLinkStore then LinkStore.close
    info "Controller shutdown complete"

/-- Serves the controller's interface. -/
def serve (settings : Settings) : Act Unit :=
  send (.serve settings.apiTitle settings.apiHost settings.apiPort)

end Lightpath.Controller
