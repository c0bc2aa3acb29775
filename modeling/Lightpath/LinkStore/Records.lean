import Lightpath.Text.Order
import Lightpath.Topology.Link

/-!
# Records of the link database

The database holds a hash with both ends of each link, and for each device the set of the ids of the links
that touch it. Looking the links of a device up goes through its ids in ascending order, so that it does
not depend on the order in which the database tells the members of a set.
-/

namespace Lightpath.LinkStore

open Lightpath.Topology

/-! ## Contents -/

/-- The sets and hashes of a database. -/
structure Records where
  sets : OrderedMap String (List String)
  hashes : OrderedMap String (OrderedMap String String)
  deriving Repr

/-- A database that holds nothing. -/
def Records.empty : Records := ⟨[], []⟩

/-- The key of the set of a device. -/
def setKey (device : String) : String :=
  "device_links:" ++ device

/-- The key of the hash of a link. -/
def hashKey (id : String) : String :=
  "link:" ++ id

namespace Records

/-- Puts a member into a set. -/
def addMember (r : Records) (key member : String) : Records :=
  let members := (OrderedMap.get? r.sets key).getD []
  if members.contains member then r
  else { r with sets := OrderedMap.put r.sets key (members ++ [member]) }

/-- Gives fields of a hash their values. -/
def putFields (r : Records) (key : String) (fields : List (String × String)) : Records :=
  let old := (OrderedMap.get? r.hashes key).getD []
  let hash := fields.foldl (fun h f => OrderedMap.put h f.1 f.2) old
  { r with hashes := OrderedMap.put r.hashes key hash }

/-! ## Links -/

/-- The fields of the hash of a link. -/
def fieldsOf (l : Link) : List (String × String) :=
  [("src", l.src.text), ("dst", l.dst.text)]

/-- Stores a link and enters it for both of its devices. -/
def addLink (r : Records) (id : String) (l : Link) : Records :=
  ((r.putFields (hashKey id) (fieldsOf l)).addMember (setKey l.src.device) id).addMember
    (setKey l.dst.device) id

/-- What the database tells about an id. -/
inductive Finding where
  | link (l : Link)
  | dangling (id : String)
  | malformed (id : String)
  deriving DecidableEq, Repr

/-- The link of a hash, if both ends can be read. -/
def linkOf? (hash : OrderedMap String String) : Option Link :=
  match OrderedMap.get? hash "src", OrderedMap.get? hash "dst" with
  | some src, some dst =>
    match ConnectPoint.parse src, ConnectPoint.parse dst with
    | .ok src, .ok dst => some ⟨src, dst⟩
    | _, _ => none
  | _, _ => none

/-- What the database tells about one id. -/
def finding (r : Records) (id : String) : Finding :=
  match OrderedMap.get? r.hashes (hashKey id) with
  | none => .dangling id
  | some [] => .dangling id
  | some hash =>
    match linkOf? hash with
    | some l => .link l
    | none => .malformed id

/-- The ids of the links of a device, in ascending order. -/
def idsOf (r : Records) (device : String) : List String :=
  Text.sortedOnce ((OrderedMap.get? r.sets (setKey device)).getD [])

/-- What the database tells about the ids of a device. -/
def findings (r : Records) (device : String) : List Finding :=
  (r.idsOf device).map r.finding

/-- The link that was found. -/
def Finding.link? : Finding → Option Link
  | link l => some l
  | _ => none

/-- The links of a device. -/
def linksOf (r : Records) (device : String) : List Link :=
  (r.findings device).filterMap Finding.link?

end Records

end Lightpath.LinkStore
