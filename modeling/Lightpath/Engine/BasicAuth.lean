import Lightpath.Engine.Address
import Lightpath.Engine.Client
import Lightpath.Failure

/-!
# Basic authorization

User and password are sent as bytes in groups of six bits. Only characters with one byte can be sent.
-/

namespace Lightpath.Engine

/-! ## Groups of six bits -/

/-- The characters for groups of six bits, in the order of their values. -/
def sextetChars : List Char :=
  "ABCDEFGHIJKLMNOPQRSTUVWXYZabcdefghijklmnopqrstuvwxyz0123456789+/".toList

/-- The character for the last six bits of a number. -/
def sextetChar (n : Nat) : Char :=
  sextetChars.getD (n % 64) 'A'

/-- Writes bytes in groups of six bits, four to three bytes; a last group that is not full ends in marks. -/
def base64 : List Nat → List Char
  | [] => []
  | [a] => [sextetChar (a / 4), sextetChar (a * 16), '=', '=']
  | [a, b] => [sextetChar (a / 4), sextetChar (a * 16 + b / 16), sextetChar (b * 4), '=']
  | a :: b :: c :: rest =>
    sextetChar (a / 4) :: sextetChar (a * 16 + b / 16) :: sextetChar (b * 4 + c / 64) :: sextetChar c
      :: base64 rest

/-! ## Credentials -/

/-- The bytes of a text in which each character has one. -/
def bytesOf (s : String) : Outcome (List Nat) :=
  if s.toList.all fun c => c.toNat < 256 then .ok (s.toList.map Char.toNat) else .error .unencodable

/-- The text that proves who sends a request. -/
def Credentials.authorization (c : Credentials) : Outcome String := do
  let bytes ← bytesOf (c.user ++ ":" ++ c.password)
  return "Basic " ++ String.ofList (base64 bytes)

/-- The user and the password that stand in an address in front of its host. An address with a user alone
has none, and neither has one in which both are empty. -/
def Credentials.inAddress? (address : String) : Option Credentials :=
  match splitAt (· == ':') address.toList with
  | (_, ':' :: '/' :: '/' :: rest) =>
    let (authority, _) := splitAt (fun c => "/?#".toList.contains c) rest
    match splitAt (· == '@') authority.reverse with
    | (_, []) => none
    | (_, _ :: user) =>
      match splitAt (· == ':') user.reverse with
      | (_, []) => none
      | ([], [_]) => none
      | (user, _ :: password) => some ⟨plainText user, plainText password⟩
  | _ => none

end Lightpath.Engine
