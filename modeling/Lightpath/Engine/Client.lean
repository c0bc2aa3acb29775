import Lightpath.Controller.Settings

/-!
# Clients of the path computation engine

A client knows where the engine is and holds at most one session to it. The engine is known by what it
answers: a status with a body, or a fault of the connection.
-/

namespace Lightpath.Engine

/-- A user and a password. -/
structure Credentials where
  user : String
  password : String
  deriving DecidableEq, Repr

/-- An open session, with credentials if a user was given. -/
structure Session where
  credentials : Option Credentials
  deriving DecidableEq, Repr

/-- A client of an engine. -/
structure Client where
  baseUrl : String
  path : String
  timeout : Float
  session : Option Session
  deriving Repr

namespace Client

/-- A client without a session. -/
def new (settings : Controller.Settings) (protocol host : String) (port : Int) : Client :=
  ⟨protocol ++ "://" ++ host ++ ":" ++ toString port, settings.enginePath, settings.engineTimeout, none⟩

/-- The address to which requests go. -/
def url (c : Client) : String :=
  c.baseUrl ++ c.path

/-- The client with a session; an empty user counts as none. -/
def opened (c : Client) (user password : Option String) : Client :=
  let credentials := match user with
    | none => none
    | some "" => none
    | some user => some ⟨user, password.getD ""⟩
  { c with session := some ⟨credentials⟩ }

/-- The client without a session. -/
def closed (c : Client) : Client :=
  { c with session := none }

end Client

/-- What comes back for a request. -/
inductive Answer where
  | reply (status : Int) (reason body : String)
  | fault (text : String)
  deriving DecidableEq, Repr

end Lightpath.Engine
