import Lightpath.Proofs.Numeral.WholeText
import Lightpath.Topology.Link

/-!
# Texts of connect points

The text of a connect point is split at its last stroke, and no number has a stroke in it. So the
device and the port are read back, whatever the name of the device is.
-/

namespace Lightpath.Topology

/-- A connect point with a name for its device and a port that can be written. -/
structure ConnectPoint.Writable (p : ConnectPoint) : Prop where
  device : p.device ≠ ""
  port : Numeral.Writable p.port

/-- A link between two such points. -/
structure Link.Writable (l : Link) : Prop where
  src : l.src.Writable
  dst : l.dst.Writable

theorem stroke_notMem_toString (n : Int) : '/' ∉ (toString n).toList := by
  intro h
  rcases Numeral.mem_toString h with h | h
  · exact absurd h (by decide)
  · exact absurd h (by decide)

/-- **A connect point is read back from its text.** -/
theorem ConnectPoint.parse_text {p : ConnectPoint} (h : p.Writable) : parse p.text = .ok p := by
  have htext : p.text.toList = p.device.toList ++ '/' :: (toString p.port).toList := by
    simp [text, String.toList_append]
  obtain ⟨c, rest, hdevice⟩ := List.exists_cons_of_ne_nil
    (fun hnil => h.device (String.toList_eq_nil_iff.mp hnil))
  have hsplit := splitLast_append p.device.toList (stroke_notMem_toString p.port)
  rw [parse, htext, hsplit, hdevice]
  simp only
  rw [Numeral.readWhole_toString p.port h.port, ← hdevice, String.ofList_toList]

end Lightpath.Topology
