import Lightpath.CrossConnect.Rule
import Lightpath.Proofs.Numeral.WholeText

/-!
# Keys of connections

The key of a rule is one text for its device, its ports and its slot. A device may have any name,
also one with the separators of the key in it, so a key is read from its end: behind the last of a
separator stands a part that cannot contain it. Main statement: rules have the same key exactly when
they ask for the same connection (`key_eq_iff_connection_eq`).
-/

namespace Lightpath.CrossConnect

open Lightpath.Numeral Lightpath.Spectrum

/-! ## Connections -/

/-- What a rule asks for apart from its power. -/
structure Connection where
  device : String
  input : Int
  output : Int
  slot : Slot
  deriving DecidableEq, Repr

/-- The connection of a rule. -/
def Rule.connection (r : Rule) : Connection :=
  ⟨r.device, r.input, r.output, r.slot⟩

/-! ## Parts of a key -/

/-- A text is split in one way only at a separator that does not occur behind it. -/
theorem append_cons_inj_of_notMem_right {a a' b b' : List Char} {c : Char}
    (h : a ++ c :: b = a' ++ c :: b') (hb : c ∉ b) (hb' : c ∉ b') : a = a' ∧ b = b' := by
  rcases List.append_eq_append_iff.mp h with ⟨x, ha', hx⟩ | ⟨x, ha, hx⟩
  · cases x with
    | nil =>
      rw [List.append_nil] at ha'
      exact ⟨ha'.symm, (List.cons.inj hx).2⟩
    | cons d x =>
      refine absurd ?_ hb
      rw [(List.cons.inj hx).2]
      exact List.mem_append_right _ List.mem_cons_self
  · cases x with
    | nil =>
      rw [List.append_nil] at ha
      exact ⟨ha, ((List.cons.inj hx).2).symm⟩
    | cons d x =>
      refine absurd ?_ hb'
      rw [(List.cons.inj hx).2]
      exact List.mem_append_right _ List.mem_cons_self

/-- A number is written without any separator. -/
theorem notMem_toString {n : Int} {c : Char} (hc : c ≠ '-') (hd : c.isDigit = false) :
    c ∉ (toString n).toList := by
  intro h
  rcases mem_toString h with h | h
  · exact hc h
  · rw [hd] at h
    exact absurd h (by decide)

theorem notMem_toString_nat {n : Nat} {c : Char} (hd : c.isDigit = false) :
    c ∉ (toString n).toList := by
  intro h
  rw [Nat.toString_eq_repr, Nat.toList_repr] at h
  rw [Nat.isDigit_of_mem_toDigits (by decide) (by decide) h] at hd
  exact absurd hd (by decide)

/-- The name of a spacing has no stroke, -/
theorem notMem_spacing_name (s : Spacing) : '/' ∉ s.name.toList := by
  cases s <;> decide

/-- and that of a grid no sign that ends the ports. -/
theorem notMem_grid_name (g : GridType) : '@' ∉ g.name.toList := by
  cases g <;> decide

/-- Different spacings have different names, -/
theorem spacing_name_injective {s t : Spacing} (h : s.name.toList = t.name.toList) : s = t := by
  cases s <;> cases t <;> first | rfl | exact absurd h (by decide)

/-- and so do different grids. -/
theorem grid_name_injective {g g' : GridType} (h : g.name.toList = g'.name.toList) : g = g' := by
  cases g <;> cases g' <;> first | rfl | exact absurd h (by decide)

/-! ## Keys -/

/-- A key with its parts grouped from the left, as it is read from the end. -/
theorem toList_key (r : Rule) :
    r.key.toList = ((((((r.device.toList ++ ':' :: (toString r.input).toList) ++ ['-'])
      ++ '>' :: (toString r.output).toList) ++ '@' :: r.slot.grid.name.toList)
      ++ '/' :: r.slot.spacing.name.toList) ++ '/' :: (toString r.slot.multiplier).toList)
      ++ '/' :: (toString r.slot.granularity).toList := by
  simp [Rule.key, Slot.text, String.toList_append]

/-- A key tells the connection. -/
theorem connection_eq_of_key_eq {a b : Rule} (h : a.key = b.key) : a.connection = b.connection := by
  have hlist := congrArg String.toList h
  rw [toList_key, toList_key] at hlist
  obtain ⟨hlist, hgranularity⟩ := append_cons_inj_of_notMem_right hlist
    (notMem_toString_nat (by decide)) (notMem_toString_nat (by decide))
  obtain ⟨hlist, hmultiplier⟩ := append_cons_inj_of_notMem_right hlist
    (notMem_toString (by decide) (by decide)) (notMem_toString (by decide) (by decide))
  obtain ⟨hlist, hspacing⟩ := append_cons_inj_of_notMem_right hlist
    (notMem_spacing_name _) (notMem_spacing_name _)
  obtain ⟨hlist, hgrid⟩ := append_cons_inj_of_notMem_right hlist
    (notMem_grid_name _) (notMem_grid_name _)
  obtain ⟨hlist, houtput⟩ := append_cons_inj_of_notMem_right hlist
    (notMem_toString (by decide) (by decide)) (notMem_toString (by decide) (by decide))
  -- the minus of the arrow stands behind the input port, whose own minus can only stand in front
  obtain ⟨hdevice, hinput⟩ := append_cons_inj_of_notMem_right (List.append_cancel_right hlist)
    (notMem_toString (by decide) (by decide)) (notMem_toString (by decide) (by decide))
  have hslot : a.slot = b.slot := by
    rw [Slot.mk.injEq]
    exact ⟨grid_name_injective hgrid, spacing_name_injective hspacing,
      toString_injective hmultiplier, toString_nat_injective hgranularity⟩
  rw [Rule.connection, Rule.connection, String.toList_injective hdevice,
    toString_injective hinput, toString_injective houtput, hslot]

/-- **Rules have one key exactly when they ask for one connection.** -/
theorem key_eq_iff_connection_eq (a b : Rule) : a.key = b.key ↔ a.connection = b.connection := by
  refine ⟨connection_eq_of_key_eq, fun h => ?_⟩
  obtain ⟨hdevice, hinput, houtput, hslot⟩ := Connection.mk.inj h
  rw [Rule.key, Rule.key, hdevice, hinput, houtput, hslot]

/-- **A key identifies its connection.** Whatever the devices are called, two rules have one key exactly when
they agree on the device, on both ports and on the slot; their powers do not matter. -/
theorem Rule.key_eq_iff (a b : Rule) :
    a.key = b.key ↔
      a.device = b.device ∧ a.input = b.input ∧ a.output = b.output ∧ a.slot = b.slot := by
  rw [key_eq_iff_connection_eq, Rule.connection, Rule.connection, Connection.mk.injEq]

end Lightpath.CrossConnect
