import Lightpath.Site.State

/-!
# Sessions with devices

A device is spoken to in a session, if there is one. A request is a message to the device; the device takes
it, or its session breaks with a text.
-/

namespace Lightpath.Site

/-- Looks up the session of a device. -/
def session? (device : String) : Act (Option Device) := do
  match OrderedMap.get? (← get).devices device with
  | none => return none
  | some d =>
    match d.uses with
    | none => return some d
    | some 0 => return none
    | some (n + 1) =>
      modify fun s => { s with devices := OrderedMap.put s.devices device { d with uses := some n } }
      return some d

/-- Asks a device for the data that a filter selects. -/
def Device.read (d : Device) (device filter : String) : Act (Except String (Option String)) := do
  send (.read device filter)
  match d.readFault with
  | some text => return .error text
  | none => return .ok (d.reply filter)

/-- Asks a device to change its configuration. -/
def Device.edit (d : Device) (device operation config : String) : Act (Except String Bool) := do
  send (.edit device operation config)
  match d.editFault with
  | some text => return .error text
  | none => return .ok d.accepts

end Lightpath.Site
