import Lightpath.Proofs.Numeral.WholeGrammar
import Lightpath.Proofs.Topology.PointText

/-!
# Reading connect points

A text is read as a connect point when a device stands in front of its last stroke and a whole number
behind it, in any of the ways in which a number may be written. Written again, the point has one text,
which is read as the same point. Main statement: `parse_written`.
-/

namespace Lightpath.Topology

/-! ## The last stroke -/

/-- A text with a stroke has a last one. -/
theorem exists_last_stroke {cs : List Char} (h : '/' ∈ cs) :
    ∃ before after, cs = before ++ '/' :: after ∧ '/' ∉ after := by
  obtain ⟨after, before, hreverse, hafter⟩ := List.eq_append_cons_of_mem (List.mem_reverse.mpr h)
  refine ⟨before.reverse, after.reverse, ?_, fun hmem => hafter (List.mem_reverse.mp hmem)⟩
  rw [← List.reverse_reverse cs, hreverse]
  simp

/-- A text is split at its last stroke, and in no other way. -/
theorem splitLast_eq_some_iff {cs before after : List Char} :
    splitLast cs = some (before, after) ↔ cs = before ++ '/' :: after ∧ '/' ∉ after := by
  constructor
  · intro h
    have hmem : '/' ∈ cs := by
      by_contra hnot
      rw [splitLast_eq_none hnot] at h
      exact absurd h (by simp)
    obtain ⟨before', after', rfl, hafter⟩ := exists_last_stroke hmem
    rw [splitLast_append before' hafter] at h
    obtain ⟨rfl, rfl⟩ := Prod.mk.inj (Option.some.inj h)
    exact ⟨rfl, hafter⟩
  · rintro ⟨rfl, hafter⟩
    exact splitLast_append before hafter

namespace ConnectPoint

variable {s : String} {p : ConnectPoint}

/-! ## Texts of points -/

/-- **A text writes a connect point**: in front of its last stroke stands the device, which has a name,
and behind it the number of the port. -/
def Written (s : String) (p : ConnectPoint) : Prop :=
  ∃ port, s.toList = p.device.toList ++ '/' :: port ∧ '/' ∉ port ∧ p.device ≠ "" ∧
    Numeral.Writes port p.port

/-- The reader accepts exactly the texts of connect points. -/
theorem parse_eq_ok_iff : parse s = .ok p ↔ Written s p := by
  rw [parse, Written]
  constructor
  · intro h
    split at h
    · exact absurd h (by simp)
    · exact absurd h (by simp)
    · rename_i device port hdevice hsplit
      split at h
      · rename_i n hn
        obtain rfl := Except.ok.inj h
        obtain ⟨htext, hport⟩ := splitLast_eq_some_iff.mp hsplit
        refine ⟨port, by rw [htext, String.toList_ofList], hport, fun hempty => ?_,
          Numeral.readWhole_eq_some_iff.mp hn⟩
        exact hdevice (String.ofList_eq_empty_iff.mp hempty)
      · exact absurd h (by simp)
  · rintro ⟨port, htext, hport, hdevice, hwrites⟩
    obtain ⟨c, rest, hname⟩ := List.exists_cons_of_ne_nil
      (fun hnil => hdevice (String.toList_eq_nil_iff.mp hnil))
    rw [htext, splitLast_append _ hport, hname]
    simp only
    rw [Numeral.readWhole_eq_some_iff.mpr hwrites, ← hname, String.ofList_toList]

/-- A connect point that was read can be written. -/
theorem writable_of_parse (h : parse s = .ok p) : p.Writable := by
  obtain ⟨port, -, -, hdevice, hwrites⟩ := parse_eq_ok_iff.mp h
  exact ⟨hdevice, Numeral.writable_of_readWhole (Numeral.readWhole_eq_some_iff.mpr hwrites)⟩

/-- **Connect points survive their texts.** A point whose device has a name and whose port has no more
digits than are read is read back from its text. A text is read as a point just when it writes this point:
a device with a name in front of the last stroke, and a whole number behind it. And whatever way of writing
it a point was read from, it is read again from its own text. -/
theorem parse_written :
    (∀ p : ConnectPoint, p.device ≠ "" → Numeral.Writable p.port → parse p.text = .ok p) ∧
      (∀ s p, parse s = .ok p ↔ Written s p) ∧
      ∀ s p, parse s = .ok p → parse p.text = .ok p :=
  ⟨fun _ hdevice hport => parse_text ⟨hdevice, hport⟩, fun _ _ => parse_eq_ok_iff,
    fun _ _ h => parse_text (writable_of_parse h)⟩

/-- A device with strokes and blanks in its name, and a port that is written with more than its digits. -/
theorem parse_written_blanks :
    parse (text ⟨"netconf:10.0.0.1/a b", -12⟩) = .ok ⟨"netconf:10.0.0.1/a b", -12⟩ ∧
      Written "a/b/ +0_7 " ⟨"a/b", 7⟩ ∧ parse (text ⟨"a/b", 7⟩) = .ok ⟨"a/b", 7⟩ := by
  obtain ⟨hback, hwritten, hagain⟩ := parse_written
  have hread : parse "a/b/ +0_7 " = .ok ⟨"a/b", 7⟩ := by
    rfl
  exact ⟨hback _ (by decide) (by unfold Numeral.Writable; decide), (hwritten _ _).mp hread,
    hagain _ _ hread⟩

end ConnectPoint

end Lightpath.Topology
