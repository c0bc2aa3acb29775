import Lightpath.Form.Record

/-!
# Connect points

A connect point is a port of a device. Its text is the name of the device, a stroke and the number of the
port; as a device name may hold strokes itself, a text is split at its last one.
-/

namespace Lightpath.Topology

/-! ## Texts -/

/-- A port of a device. -/
structure ConnectPoint where
  device : String
  port : Int
  deriving DecidableEq, Repr

/-- Splits a text at its last stroke. -/
def splitLast : List Char → Option (List Char × List Char)
  | [] => none
  | c :: rest =>
    match splitLast rest with
    | some (before, after) => some (c :: before, after)
    | none => if c = '/' then some ([], rest) else none

namespace ConnectPoint

/-- The text of a connect point. Ports that are read from a text are `Numeral.Writable`, so the text is total. -/
def text (p : ConnectPoint) : String :=
  p.device ++ "/" ++ toString p.port

/-- Reads a connect point: a device with a name and the number of a port behind the last stroke. -/
def parse (s : String) : Outcome ConnectPoint :=
  match splitLast s.toList with
  | none => .error (.malformedPoint s)
  | some ([], _) => .error (.malformedPoint s)
  | some (device, port) =>
    match Numeral.readWhole port with
    | some n => .ok ⟨String.ofList device, n⟩
    | none => .error .unreadable

/-! ## Values -/

/-- Reads a connect point from a value, which only a string can be. -/
def ofJson : Json → Outcome ConnectPoint
  | .str s => parse s
  | _ => .error .missingOperation

/-- A connect point as a record. -/
def check : Form.Check ConnectPoint :=
  Form.record fun fields =>
    mk <$> fields.required "device_id" Form.text <*> fields.required "port" Form.whole

/-- The record of a connect point. -/
def toJson (p : ConnectPoint) : Json :=
  .obj [("device_id", .str p.device), ("port", .int p.port)]

end ConnectPoint

/-! ## Laws of the split -/

theorem splitLast_eq_none {cs : List Char} (h : '/' ∉ cs) : splitLast cs = none := by
  induction cs with
  | nil => rfl
  | cons c rest ih =>
    have hc : ¬c = '/' := fun e => h (by simp [e])
    simp [splitLast, ih fun m => h (by simp [m]), hc]

/-- A text is split at the stroke behind which there is no other. -/
theorem splitLast_append (before : List Char) {after : List Char} (h : '/' ∉ after) :
    splitLast (before ++ '/' :: after) = some (before, after) := by
  induction before with
  | nil => simp [splitLast, splitLast_eq_none h]
  | cons c rest ih => simp [splitLast, ih]

end Lightpath.Topology
