import Lightpath.CrossConnect.Table
import Lightpath.LinkStore.Records
import Lightpath.Site.Event

/-!
# The state of a site and steps that change it

A site is the controller's memory together with its surroundings: the devices, the engine, the link database
and the circuit service, each known by what it answers, and the messages and log lines so far. A step
changes the site and yields a value or a failure; what it did before a failure stays done.
-/

namespace Lightpath.Site

open Lightpath.CrossConnect Lightpath.Engine

/-! ## Surroundings -/

/-- How a device answers in its session: what it replies to the filter of a request, and whether it accepts
edits. `uses` counts the look-ups after which there is no session. -/
structure Device where
  reply : String → Option String
  readFault : Option String
  accepts : Bool
  editFault : Option String
  uses : Option Nat

/-- How the link database answers to a ping. -/
inductive Pong where
  | value (v : Json)
  | refused (kind reason : String)
  | broken (kind : String)
  deriving Repr

/-- A line of the log. -/
structure Line where
  level : Controller.LogLevel
  text : String
  deriving DecidableEq, Repr

/-! ## State -/

/-- A controller and its surroundings. The circuit service answers to what it is sent with the name of a
circuit or with the text of an error. -/
structure State where
  devices : OrderedMap String Device
  table : Table
  engine : Option Client
  answers : List Answer
  circuits : Event → Except String String
  store : LinkStore.Records
  pongs : List Pong
  events : List Event
  lines : List Line

/-- A step that changes a site. -/
abbrev Act := EStateM Failure State

/-! ## Steps -/

/-- Sends a message. -/
def send (e : Event) : Act Unit :=
  modify fun s => { s with events := s.events ++ [e] }

/-- Logs a line. -/
def log (level : Controller.LogLevel) (text : String) : Act Unit :=
  modify fun s => { s with lines := s.lines ++ [⟨level, text⟩] }

/-- Logs a line of information. -/
def info (text : String) : Act Unit := log .info text

/-- Logs a warning. -/
def warn (text : String) : Act Unit := log .warning text

/-- Logs an error. -/
def complain (text : String) : Act Unit := log .error text

/-- Yields the outcome of an operation that does not touch the site. -/
def yield {α : Type} : Outcome α → Act α
  | .ok a => pure a
  | .error f => throw f

/-- Runs a step on a site. -/
def Act.exec {α : Type} (a : Act α) (s : State) : Outcome α × State :=
  match a.run s with
  | .ok v s => (.ok v, s)
  | .error f s => (.error f, s)

end Lightpath.Site
