import Lightpath.Form.Issue

/-!
# Why an operation fails

The causes for which an operation of the controller gives no answer at all, apart from the outcomes that
an operation reports itself (a device that cannot be read, a plan that cannot be decoded).
-/

namespace Lightpath

/-- The cause of a failure. -/
inductive Failure where
  /-- a text or number that cannot be read as what is wanted -/
  | unreadable
  /-- a text that should be a device and a port -/
  | malformedPoint (text : String)
  /-- a device whose type nobody told -/
  | unknownDeviceType (device : String)
  /-- neither a power control nor component names were given -/
  | noPowerControl
  /-- a value of the wrong kind -/
  | wrongKind
  /-- a record without the field that is wanted -/
  | missingKey
  /-- a list that is too short -/
  | missingPosition
  /-- a value that has no such operation -/
  | missingOperation
  /-- a number outside the range of what it is converted to -/
  | outOfRange
  /-- decimal arithmetic without a result -/
  | undefinedDecimal
  /-- decimal arithmetic with too large a result -/
  | decimalTooLarge
  /-- a text that is no well-formed document -/
  | malformedDocument
  /-- a text with characters outside the wanted encoding -/
  | unencodable
  /-- an input that does not have the wanted shape -/
  | invalid (issues : List Form.Issue)
  /-- no session to the path computation engine is open -/
  | notConnected
  /-- the path computation engine could not be reached or answered badly -/
  | computation (reason : String)
  /-- the link database refused -/
  | linkDatabase (kind reason : String)
  /-- something else broke on the way to the link database -/
  | foreign (kind : String)
  deriving Repr

/-- The text of a failure, for those that explain themselves. -/
def Failure.message? : Failure → Option String
  | .malformedPoint text => some ("Connect point must be in format 'device/port': " ++ text)
  | .unknownDeviceType device =>
    some ("Device type of " ++ device ++ " unknown and no inventory configured")
  | .noPowerControl => some "Either a power control or a component name lookup is required"
  | .notConnected => some "Path computation engine is not connected"
  | .computation reason => some reason
  | .linkDatabase _ reason => some reason
  | _ => none

/-- The outcome of an operation that may fail. -/
abbrev Outcome (α : Type) := Except Failure α

end Lightpath
