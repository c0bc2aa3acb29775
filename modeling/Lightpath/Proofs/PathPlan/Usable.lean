import Lightpath.Proofs.Json.Reader
import Lightpath.Proofs.PathPlan.Label

/-!
# Replies with usable numbers

Looking into a reply fails for its shape and for nothing else. Turning what is found into a number
can also fail because the number is too large: a label that is infinite, a power or a quality beyond the
floating-point numbers. Each law says of one way of looking into a value what it yields.
-/

namespace Lightpath.PathPlan

open Lightpath.Numeral

variable {α β : Type}

/-! ## Faults of shape -/

/-- **An outcome fails for the shape of a reply only**, and what it yields is as it should be. -/
def Yields (P : α → Prop) : Outcome α → Prop
  | .ok a => P a
  | .error f => isShapeFault f = true

namespace Yields

variable {P : α → Prop} {Q : β → Prop} {x : Outcome α}

/-- What is yielded may be said less of. -/
theorem mono {R : α → Prop} (h : Yields P x) (hPR : ∀ a, P a → R a) : Yields R x := by
  cases x with
  | ok a => exact hPR a h
  | error f => exact h

/-- What an outcome has yielded is as it should be. -/
theorem of_eq_ok {a : α} (h : Yields P x) (ha : x = .ok a) : P a := by
  rw [ha] at h
  exact h

/-- What comes next may depend on what has been yielded. -/
theorem bind_eq {f : α → Outcome β} (h : Yields P x) (hf : ∀ a, x = .ok a → P a → Yields Q (f a)) :
    Yields Q (x >>= f) := by
  cases x with
  | ok a => exact hf a rfl h
  | error g => exact h

/-- What comes next yields as it should, whatever has been yielded. -/
theorem bind {f : α → Outcome β} (h : Yields P x) (hf : ∀ a, P a → Yields Q (f a)) :
    Yields Q (x >>= f) :=
  h.bind_eq fun a _ ha => hf a ha

end Yields

/-! ## Values with usable numbers -/

/-- A label is no infinite number. -/
def LabelInRange (v : Json) : Prop :=
  ∀ x negative, v = .float x → parts x ≠ .infinite negative

/-- A power or a quality is no whole number beyond the floating-point ones. -/
def PowerInRange (v : Json) : Prop :=
  ∀ n, v = .int n → ∃ x, Json.floatOfInt n = .ok x

/-- No whole number in a value has more digits than are read from a text. -/
abbrev ShortInside (v : Json) : Prop :=
  v.Everywhere fun _ w => w.Short

variable {v : Json}

/-! ## Numbers -/

/-- A label in range is read as a number that has a slot. -/
theorem yields_toWhole (hshort : v.Short) (h : LabelInRange v) :
    Yields (fun n => n.natAbs < 2 ^ labelBits) v.toWhole := by
  have hbits : labelBits = 17200 := by decide
  cases v with
  | null => rfl
  | arr items => rfl
  | obj fields => rfl
  | bool b =>
    have hsmall : (if b then (1 : Int) else 0).natAbs < 2 ^ 1 := by cases b <;> decide
    exact hsmall.trans_le (Nat.pow_le_pow_right Nat.two_pos (by omega))
  | int m => exact lt_two_pow_labelBits (hshort m rfl)
  | float x =>
    rw [Json.toWhole]
    cases hparts : parts x with
    | notANumber => rfl
    | infinite negative => exact absurd hparts (h x negative rfl)
    | finite negative m e =>
      obtain ⟨hm, he⟩ := bounds_of_parts hparts
      exact natAbs_whole?_lt negative hm (by omega) (by omega)
  | str s =>
    rw [Json.toWhole]
    cases hread : wholeOf s with
    | none => rfl
    | some m => exact lt_two_pow_labelBits (natAbs_lt_of_readWhole hread)

/-- A power in range is read as a number. -/
theorem yields_toFloat (h : PowerInRange v) : Yields (fun _ => True) v.toFloat := by
  cases v with
  | null => rfl
  | arr items => rfl
  | obj fields => rfl
  | bool b => exact trivial
  | int n =>
    obtain ⟨x, hx⟩ := h n rfl
    rw [Json.toFloat, hx]
    exact trivial
  | float x => exact trivial
  | str s =>
    rw [Json.toFloat]
    cases floatOf s with
    | none => rfl
    | some x => exact trivial

/-! ## Looking

What holds of each field of a value holds of each field of what is found in it. -/

section Looking

variable {P : String → Json → Prop}

/-- The characters of a text have no fields. -/
theorem everywhere_characters (s : String) :
    ∀ w ∈ s.toList.map fun c => Json.str (String.singleton c), w.Everywhere P := by
  intro w hw
  obtain ⟨c, -, rfl⟩ := List.mem_map.mp hw
  exact trivial

/-- The value of a field is there or the shape is at fault; -/
theorem yields_item (h : v.Everywhere P) (name : String) :
    Yields (fun w => P name w ∧ w.Everywhere P) (v.item name) := by
  cases v with
  | obj fields =>
    rw [Json.item]
    cases hget : OrderedMap.get? fields name with
    | none => rfl
    | some found => exact h.of_get? hget
  | _ => rfl

/-- one that may be missing is looked for in a record only. -/
theorem yields_lookup (h : v.Everywhere P) (name : String) :
    Yields (Json.Everywhere P) (v.lookup name) := by
  cases v with
  | obj fields => exact h.getD name trivial
  | _ => rfl

/-- The first of a list is there unless the list is empty. -/
theorem yields_first (h : v.Everywhere P) : Yields (Json.Everywhere P) v.first := by
  cases v with
  | arr items =>
    cases items with
    | nil => rfl
    | cons found rest => exact h.1
  | str s =>
    rw [Json.first]
    cases s.toList with
    | nil => rfl
    | cons c cs => exact trivial
  | _ => rfl

/-- What a loop goes through is in the value. -/
theorem yields_elements (h : v.Everywhere P) :
    Yields (fun ws => ∀ w ∈ ws, w.Everywhere P) v.elements := by
  cases v with
  | arr items => exact Json.everywhere_arr.mp h
  | obj fields =>
    intro w hw
    obtain ⟨f, -, rfl⟩ := List.mem_map.mp hw
    exact trivial
  | str s => exact everywhere_characters s
  | _ => rfl

/-- What a loop over positions reaches is in the value. -/
theorem yields_positions (h : v.Everywhere P) :
    Yields (fun ws => ∀ w ∈ ws, w.Everywhere P) v.positions := by
  cases v with
  | arr items => exact Json.everywhere_arr.mp h
  | str s => exact everywhere_characters s
  | obj fields =>
    match fields with
    | [] => exact fun _ hw => absurd hw List.not_mem_nil
    | [_] => exact fun _ hw => absurd hw List.not_mem_nil
    | _ :: _ :: _ => rfl
  | _ => rfl

end Looking

end Lightpath.PathPlan
