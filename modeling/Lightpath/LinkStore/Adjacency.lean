import Lightpath.Site.State

/-!
# Talking to the link database

The database is pinged before it is used. It gets three attempts to answer, as long as it is only the
connection that fails.
-/

namespace Lightpath.LinkStore

open Lightpath.Site Lightpath.Topology

/-! ## Pings -/

/-- The kinds of faults after which another attempt is made. -/
def retried : List String :=
  ["ConnectionError", "AuthenticationError", "BusyLoadingError"]

/-- Pings the database. -/
def ping : Act Json := do
  send .ping
  match (← get).pongs with
  | [] => return .bool true
  | pong :: rest =>
    modify fun s => { s with pongs := rest }
    match pong with
    | .value v => return v
    | .refused kind reason => throw (.linkDatabase kind reason)
    | .broken kind => throw (.foreign kind)

/-- Pings the database until it answers, and again at most so many times. -/
def pingUntil : Nat → Act Unit
  | 0 => discard ping
  | more + 1 => do
    try
      discard ping
    catch
      | .linkDatabase kind reason =>
        if retried.contains kind then pingUntil more else throw (.linkDatabase kind reason)
      | f => throw f

/-- Connects to the database. -/
def connect (settings : Controller.Settings) : Act Unit := do
  pingUntil 2
  info ("Link Database connected to " ++ settings.linkStoreHost ++ ":" ++ toString settings.linkStorePort)

/-- Whether the database is well: it answers, and its answer counts as yes. -/
def isHealthy : Act Bool := do
  try
    return (← ping).truthy
  catch
    | .linkDatabase _ _ => return false
    | f => throw f

/-- Closes the connection. -/
def close : Act Unit := do
  send .close
  info "Link Database connection closed"

/-! ## Links -/

/-- Stores a link and enters it for both of its devices. -/
def addLink (id : String) (l : Link) : Act Unit := do
  send (.putFields (hashKey id) (Records.fieldsOf l))
  send (.addMember (setKey l.src.device) id)
  send (.addMember (setKey l.dst.device) id)
  send .execute
  modify fun s => { s with store := s.store.addLink id l }
  info ("Link " ++ id ++ " stored: " ++ l.src.text ++ " -> " ++ l.dst.text)

/-- Warns about an id that no link was found for. -/
def tell (device : String) : Records.Finding → Act Unit
  | .link _ => return
  | .dangling id => warn ("Dangling link id " ++ id ++ " for " ++ device)
  | .malformed id => warn ("Skipping malformed link " ++ id ++ ": ")

/-- The links of a device. -/
def deviceLinks (device : String) : Act (List Link) := do
  let store := (← get).store
  (store.findings device).forM (tell device)
  return store.linksOf device

end Lightpath.LinkStore
