import Lightpath.Engine.Address

/-!
# Routes of the controller's interface

A path is decoded and split at its strokes. Each path that the interface knows has one route, which takes
one method. A path that ends in strokes stands for the one without them.
-/

namespace Lightpath.Rest

/-! ## Paths -/

/-- The path of an address, without its query and its fragment. It starts at the root. -/
def decodedPath (address : String) : List Char :=
  let path := address.toList.takeWhile fun c => c ≠ '?' ∧ c ≠ '#'
  match (Engine.plainText path).toList with
  | '/' :: rest => '/' :: rest
  | path => '/' :: path

/-! ## Routes -/

/-- What a path stands for. -/
inductive Route where
  | root
  | health
  | addCrossConnect
  | dropCrossConnect
  | crossConnects (device : String)
  | device (name : String)
  | lambdas (device : String)
  | portPower (device port : String)
  | connectivity
  | connectEngine
  | disconnectEngine
  deriving DecidableEq, Repr

/-- The method that a route takes. -/
def Route.method : Route → String
  | root => "GET"
  | health => "GET"
  | addCrossConnect => "POST"
  | dropCrossConnect => "POST"
  | crossConnects _ => "GET"
  | device _ => "DELETE"
  | lambdas _ => "GET"
  | portPower _ _ => "GET"
  | connectivity => "POST"
  | connectEngine => "POST"
  | disconnectEngine => "POST"

/-- The route of a path below the root of the interface. -/
def Route.ofParts : List String → Option Route
  | ["health"] => some health
  | ["xc"] => some addCrossConnect
  | ["xc", "drop"] => some dropCrossConnect
  | ["devices", name] => some (device name)
  | ["devices", name, "xc"] => some (crossConnects name)
  | ["devices", name, "lambdas"] => some (lambdas name)
  | ["devices", name, "ports", port, "power"] => some (portPower name port)
  | ["connectivity"] => some connectivity
  | ["pce", "connect"] => some connectEngine
  | ["pce", "disconnect"] => some disconnectEngine
  | _ => none

/-- The route of a path. -/
def Route.ofPath (path : List Char) : Option Route :=
  if path = ['/'] then some root
  else
    match (Engine.segments path).map String.ofList with
    | "" :: "api" :: "v1" :: parts => if parts.contains "" then none else ofParts parts
    | _ => none

/-- The route of an address. -/
def Route.ofAddress (address : String) : Option Route :=
  let path := decodedPath address
  match ofPath path with
  | some r => some r
  | none => ofPath (path.reverse.dropWhile (· = '/')).reverse

end Lightpath.Rest
