import Lightpath.CrossConnect.Branch
import Lightpath.CrossConnect.Edit
import Lightpath.Site.Session

/-!
# Reconciling rules with devices

Rules are turned into edits of the media channels of a device, and the live branches of a device are turned
back into rules. A device that forwards the whole band is not edited at all: its rules are only remembered
in the connection table.
-/

namespace Lightpath.CrossConnect

open Lightpath.Site

/-- How rules are matched to devices: the number of the common port, the text in front of the leaf ports of
line degrees, the namespace of the devices' data and what is known of their types. -/
structure Reconciler where
  commonPort : Int
  portFront : String
  dataSpace : String
  inventory : Option (String → DeviceType)

namespace Reconciler

/-! ## Rules as changes -/

/-- A leaf port as the device writes it. It is there for every port, and ports of requests are
`Numeral.Writable`. -/
def portText (r : Reconciler) (type : DeviceType) (port : Int) : String :=
  if type = .lineDegree then r.portFront ++ toString port else toString port

/-- The change that brings a rule onto a device. -/
def creation (r : Reconciler) (type : DeviceType) (rule : Rule) : Change :=
  .create (rule.side r.commonPort) (r.portText type (rule.leafPort r.commonPort))
    (type.targetPower (rule.output = r.commonPort))

/-- The change that takes a rule off a device. -/
def withdrawal (r : Reconciler) (rule : Rule) : Change :=
  .withdraw (rule.side r.commonPort)

/-- Each rule with the channel of a plan that owns it. -/
def owners (plan : List Channel) (rules : List Rule) : List (Rule × Option String) :=
  rules.map fun rule => (rule, owner? plan rule.slot)

/-- The rules that have a channel, with it. -/
def placed (plan : List Channel) (rules : List Rule) : List (Rule × String) :=
  (owners plan rules).filterMap fun (rule, owner) => owner.map fun channel => (rule, channel)

/-- The edit that makes a change for each placed rule. -/
def editOf (change : Rule → Change) (placed : List (Rule × String)) : Edit :=
  Edit.ofChanges (placed.map fun (rule, channel) => (channel, change rule))

/-! ## Branches as rules -/

/-- The rule that a live branch of a channel stands for. -/
def ruleOf (r : Reconciler) (device : String) (c : Channel) (b : Branch) : Outcome Rule := do
  let slot ← c.slot
  return match b.side with
    | .drop => ⟨device, r.commonPort, b.leafPort, slot, b.power⟩
    | .add => ⟨device, b.leafPort, r.commonPort, slot, b.power⟩

/-- The channel of a plan with a key; of two the later counts. -/
def channelOf? (plan : List Channel) (key : String) : Option Channel :=
  OrderedMap.get? (OrderedMap.ofPairs (plan.map fun c => (c.key, c))) key

/-! ## Talking to devices -/

/-- The filter for the plan and the media channels of a device. -/
def filter (r : Reconciler) : String :=
  "<channel-plan xmlns=\"" ++ r.dataSpace ++ "\"/><media-channels xmlns=\"" ++ r.dataSpace ++ "\"/>"

/-- The type of a device, which is looked up unless it is given. -/
def typeOf (r : Reconciler) (device : String) (given : Option DeviceType) : Outcome DeviceType :=
  match given, r.inventory with
  | some t, _ => .ok t
  | none, some inventory => .ok (inventory device)
  | none, none => .error (.unknownDeviceType device)

/-- Reads the reply of a device. -/
def readReply (r : Reconciler) (device : String) : Act (Option String) := do
  match ← session? device with
  | none =>
    complain ("Cannot request NETCONF session for " ++ device)
    return none
  | some d =>
    match ← d.read device r.filter with
    | .ok reply => return reply
    | .error text =>
      complain ("Cannot read data from NETCONF for " ++ device ++ ": " ++ text)
      return none

/-- Warns about the declarations of a reply that are left out of its plan. -/
def warnSkipped (reply : String) : Act Unit := do
  match document reply with
  | .error _ => return
  | .ok root =>
    for name in Declaration.skipped (Declaration.all root) do
      warn ("Skipping incomplete channel definition " ++ name.getD "None")

/-- Reads the plan of a device. -/
def readPlan (r : Reconciler) (device : String) : Act (Option (List Channel)) := do
  match ← r.readReply device with
  | none => return none
  | some reply =>
    warnSkipped reply
    match planOf reply with
    | .ok plan => return some plan
    | .error _ =>
      complain ("Unparsable channel plan from " ++ device ++ ": ")
      return none

/-- Sends an edit to a device and tells whether the device took it. -/
def sendEdit (r : Reconciler) (device operation : String) (e : Edit) : Act Bool := do
  match ← session? device with
  | none =>
    complain ("Cannot request NETCONF session for " ++ device)
    return false
  | some d =>
    match ← d.edit device operation (e.render r.dataSpace) with
    | .error text =>
      complain ("Failed to edit configuration of " ++ device ++ ": " ++ text)
      return false
    | .ok true => return true
    | .ok false =>
      complain ("Device " ++ device ++ " rejected " ++ operation ++ " edit-config")
      return false

/-! ## Changing rules -/

/-- Sends the changes for the rules that have a channel and yields these rules; nothing is sent when there
are none. -/
def reconcile (r : Reconciler) (device operation : String) (change : Rule → Change)
    (tell : Rule × Option String → Act Unit) (rules : List Rule) : Act (Option (List Rule)) := do
  match ← r.readPlan device with
  | none => return none
  | some plan =>
    (owners plan rules).forM tell
    match placed plan rules with
    | [] => return some []
    | found =>
      if ← r.sendEdit device operation (editOf change found) then return some (found.map Prod.fst)
      else return none

/-- Logs what becomes of a rule that is applied. -/
def tellCreation (r : Reconciler) (device : String) : Rule × Option String → Act Unit
  | (rule, none) =>
    complain ("No matching channel definition available at " ++ device ++ " for rule " ++ rule.key)
  | (rule, some channel) =>
    info (device ++ ": Creating \"" ++ (rule.side r.commonPort).name ++ "\" MC " ++ channel ++ ": leaf "
      ++ toString (rule.leafPort r.commonPort))

/-- Logs what becomes of a rule that is removed. -/
def tellWithdrawal (r : Reconciler) (device : String) : Rule × Option String → Act Unit
  | (rule, none) =>
    complain ("Cannot find what channel to remove at " ++ device ++ " for rule " ++ rule.key)
  | (rule, some channel) =>
    info (device ++ ": Removing " ++ (rule.side r.commonPort).name ++ " MC " ++ channel)

/-- Brings rules onto a device and yields those that are on it, or nothing if the device could not be read
or did not take the edit. -/
def apply (r : Reconciler) (device : String) (rules : List Rule) (given : Option DeviceType) :
    Act (Option (List Rule)) := do
  let type ← yield (r.typeOf device given)
  if type.isFullBand then
    modify fun s => { s with table := rules.foldl (fun t rule => t.add device rule.key rule) s.table }
    return some rules
  else r.reconcile device "merge" (r.creation type) (r.tellCreation device) rules

/-- Takes rules off a device and yields those that were taken off, or nothing if the device could not be
read or did not take the edit. -/
def remove (r : Reconciler) (device : String) (rules : List Rule) (given : Option DeviceType) :
    Act (Option (List Rule)) := do
  let type ← yield (r.typeOf device given)
  if type.isFullBand then
    modify fun s => { s with table := rules.foldl (fun t rule => t.remove device rule.key) s.table }
    return some rules
  else r.reconcile device "none" r.withdrawal (r.tellWithdrawal device) rules

/-! ## Listing rules -/

/-- The entry of a live branch; a branch of a channel that is not in the plan has none. -/
def entryOf? (r : Reconciler) (device : String) (plan : List Channel) (b : Branch) :
    Outcome (Option Entry) :=
  match channelOf? plan b.channel with
  | none => .ok none
  | some c => do return some ⟨← r.ruleOf device c b, .added⟩

/-- The entries of some live branches. -/
def entriesOf (r : Reconciler) (device : String) (plan : List Channel) : List Branch → Act (List Entry)
  | [] => return []
  | b :: bs => do
    match ← yield (r.entryOf? device plan b) with
    | none =>
      warn (device ++ ": " ++ b.side.name ++ " MC " ++ b.channel ++ " is not in the channel plan")
      r.entriesOf device plan bs
    | some e => return e :: (← r.entriesOf device plan bs)

/-- The plan and the live branches in a reply. -/
def contentsOf (r : Reconciler) (reply : String) : Outcome (List Channel × List Branch) := do
  return (← planOf reply, ← branchesOf r.portFront reply)

/-- Lists the cross-connects of a device, or nothing if the device could not be read. -/
def query (r : Reconciler) (device : String) (given : Option DeviceType) : Act (Option (List Entry)) := do
  let type ← yield (r.typeOf device given)
  if type.isFullBand then
    return some (((← get).table.rules device).map fun rule => ⟨rule, .added⟩)
  else
    match ← r.readReply device with
    | none => return none
    | some reply =>
      warnSkipped reply
      match r.contentsOf reply with
      | .error _ =>
        complain ("Unparsable media channel data from " ++ device ++ ": ")
        return none
      | .ok (plan, branches) => return some (← r.entriesOf device plan branches)

/-- Forgets everything about a device. -/
def deviceRemoved (device : String) : Act Unit := do
  if (← get).table.knows device then
    modify fun s => { s with table := s.table.clear device }
    info ("Cleared connection cache for " ++ device)

end Reconciler

end Lightpath.CrossConnect
