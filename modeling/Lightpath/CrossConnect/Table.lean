import Lightpath.CrossConnect.Rule

/-!
# The connection table

Devices that forward the whole band do not store rules, so the controller remembers which connections it
was asked for. Each device has its rules by key, first asked for first; a device without rules has no row.
-/

namespace Lightpath.CrossConnect

/-- The rules of every device by their keys. -/
abbrev Table := OrderedMap String (OrderedMap String Rule)

namespace Table

/-! ## Look-up -/

/-- The row of a device, which is empty for a device without rules. -/
def row (t : Table) (device : String) : OrderedMap String Rule :=
  (OrderedMap.get? t device).getD []

/-- The rules of a device, first asked for first. -/
def rules (t : Table) (device : String) : List Rule :=
  OrderedMap.values (t.row device)

/-- The number of rules of all devices. -/
def size (t : Table) : Nat :=
  t.foldr (fun row n => row.2.length + n) 0

/-! ## Change -/

/-- Remembers a rule; a rule of the same key is replaced and keeps its place. -/
def add (t : Table) (device key : String) (r : Rule) : Table :=
  OrderedMap.put t device (OrderedMap.put (t.row device) key r)

/-- Whether a device has a rule of a key. -/
def has (t : Table) (device key : String) : Bool :=
  OrderedMap.has (t.row device) key

/-- Forgets a rule, and the row of the device with its last rule. -/
def remove (t : Table) (device key : String) : Table :=
  if t.has device key then
    match OrderedMap.drop (t.row device) key with
    | [] => OrderedMap.drop t device
    | row => OrderedMap.put t device row
  else t

/-- Whether a device has a row. -/
def knows (t : Table) (device : String) : Bool :=
  OrderedMap.has t device

/-- Forgets all rules of a device. -/
def clear (t : Table) (device : String) : Table :=
  OrderedMap.drop t device

/-! ## Laws -/

theorem row_add_self (t : Table) (device key : String) (r : Rule) :
    (t.add device key r).row device = OrderedMap.put (t.row device) key r := by
  simp [add, row, OrderedMap.get?_put_self]

theorem row_add_of_ne (t : Table) {device other : String} (key : String) (r : Rule)
    (h : device ≠ other) : (t.add device key r).row other = t.row other := by
  simp [add, row, OrderedMap.get?_put_of_ne _ _ h]

theorem row_clear_of_ne (t : Table) {device other : String} (h : device ≠ other) :
    (t.clear device).row other = t.row other := by
  simp [clear, row, OrderedMap.get?_drop_of_ne _ h]

end Table

end Lightpath.CrossConnect
