import Lightpath.Engine.Address
import Lightpath.Engine.BasicAuth
import Lightpath.Site.State

/-!
# Exchanges with the engine

At most one session to the engine is open. Connecting closes the one before, and every request goes out in
the open session.
-/

namespace Lightpath.Engine

open Lightpath.Site

/-! ## Sessions -/

/-- Closes the session of a client. -/
def closeSession (c : Client) : Act Unit := do
  if c.session.isSome then
    send (.closeSession c.baseUrl)
    modify fun s => { s with engine := some c.closed }
    info ("Path computation engine session to " ++ c.baseUrl ++ " closed")

/-- Gives the client up, after closing its session. -/
def disconnect : Act Unit := do
  match (← get).engine with
  | none => return
  | some c =>
    closeSession c
    modify fun s => { s with engine := none }

/-- Opens a session of a new client. -/
def connect (settings : Controller.Settings) (protocol host : String) (port : Int)
    (user password : Option String) : Act Unit := do
  disconnect
  let c := (Client.new settings protocol host port).opened user password
  send (.openSession c.baseUrl (c.session.bind Session.credentials))
  modify fun s => { s with engine := some c }
  info ("Path computation engine session opened to " ++ c.baseUrl)

/-- Whether a session is open. -/
def connectedIn (s : State) : Bool :=
  match s.engine with
  | some c => c.session.isSome
  | none => false

/-- Whether a session is open. -/
def isConnected : Act Bool := do
  return connectedIn (← get)

/-- Closes the session, but keeps the client. -/
def closeClient : Act Unit := do
  match (← get).engine with
  | none => throw .missingOperation
  | some c => closeSession c

/-! ## Requests -/

/-- The failure of a request for a reason. -/
def failed (c : Client) (reason : String) : Failure :=
  .computation ("Request to " ++ c.url ++ " failed: " ++ reason)

mutual

/-- Whether all numbers of a value are finite. -/
def allFinite : Json → Bool
  | .float x => (Numeral.parts x).isFinite
  | .arr items => allFiniteItems items
  | .obj fields => allFiniteFields fields
  | _ => true

/-- Whether all numbers of some values are finite. -/
def allFiniteItems : List Json → Bool
  | [] => true
  | v :: vs => allFinite v && allFiniteItems vs

/-- Whether all numbers in some fields are finite. -/
def allFiniteFields : List (String × Json) → Bool
  | [] => true
  | (_, v) :: fs => allFinite v && allFiniteFields fs

end

/-- The next answer of the engine; it says yes with no text when nothing else is known of it. -/
def nextAnswer : Act Answer := do
  match (← get).answers with
  | [] => return .reply 200 "OK" ""
  | a :: rest =>
    modify fun s => { s with answers := rest }
    return a

/-- The outcome of an answer to a request to an address. -/
def Answer.outcome (a : Answer) (c : Client) (address : String) : Outcome String :=
  match a with
  | .fault text => .error (failed c text)
  | .reply status reason body =>
    let refusal (side : String) : Failure :=
      failed c (toString status ++ " " ++ side ++ " Error: " ++ reason ++ " for url: " ++ address)
    if 400 ≤ status ∧ status < 500 then .error (refusal "Client")
    else if 500 ≤ status ∧ status < 600 then .error (refusal "Server")
    else .ok body

/-- The address to which a client sends a body, and the authorization that goes with it. Without credentials
in the session those in the address are taken. -/
def prepare (c : Client) (session : Session) (body : Json) : Outcome (String × Option String) := do
  let address ← match normalForm c.url with
    | .ok address => pure address
    | .error text => throw (failed c text)
  if !allFinite body then throw (failed c "Out of range float values are not JSON compliant")
  let authorization ← match session.credentials <|> Credentials.inAddress? address with
    | none => pure none
    | some credentials => some <$> credentials.authorization
  match refusal? address with
  | some text => throw (failed c text)
  | none => return (address, authorization)

/-- Sends a request in the session of a client and yields the text of the answer. -/
def exchange (c : Client) (session : Session) (body : Json) : Act String := do
  let (address, authorization) ← yield (prepare c session body)
  send (.request address authorization c.timeout body)
  yield ((← nextAnswer).outcome c address)

/-- Sends a request in the open session. -/
def post (body : Json) : Act String := do
  match (← get).engine with
  | none => throw .missingOperation
  | some c =>
    match c.session with
    | none => throw .notConnected
    | some session => exchange c session body

end Lightpath.Engine
