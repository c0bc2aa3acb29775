import Lightpath.Json.Basic

/-!
# What holds of every field of a value

A statement about a name and a value holds everywhere in a value if it holds of each field of each
object in it, however deep.
-/

namespace Lightpath.Json

variable {P Q R : String → Json → Prop} {v : Json}

mutual

/-- **Each field in a value, however deep, is as it should be.** -/
def Everywhere (P : String → Json → Prop) : Json → Prop
  | .arr items => EverywhereItems P items
  | .obj fields => EverywhereFields P fields
  | _ => True

/-- Each field in some values is as it should be. -/
def EverywhereItems (P : String → Json → Prop) : List Json → Prop
  | [] => True
  | v :: vs => Everywhere P v ∧ EverywhereItems P vs

/-- Some fields, and each field in their values, are as they should be. -/
def EverywhereFields (P : String → Json → Prop) : List (String × Json) → Prop
  | [] => True
  | (name, v) :: fs => P name v ∧ Everywhere P v ∧ EverywhereFields P fs

end

/-! ## Lists and objects -/

theorem everywhere_arr {vs : List Json} :
    Everywhere P (.arr vs) ↔ ∀ v ∈ vs, Everywhere P v := by
  rw [Everywhere]
  induction vs with
  | nil => simp [EverywhereItems]
  | cons v vs ih => rw [EverywhereItems, ih, List.forall_mem_cons]

theorem everywhere_obj {fs : List (String × Json)} :
    Everywhere P (.obj fs) ↔ ∀ f ∈ fs, P f.1 f.2 ∧ Everywhere P f.2 := by
  rw [Everywhere]
  induction fs with
  | nil => simp [EverywhereFields]
  | cons f fs ih => rw [EverywhereFields, ih, List.forall_mem_cons, and_assoc]

/-- A field that is found is one of the fields. -/
theorem Everywhere.of_get? {fs : List (String × Json)} (h : Everywhere P (.obj fs)) {name : String}
    (hv : OrderedMap.get? fs name = some v) : P name v ∧ Everywhere P v := by
  rw [everywhere_obj] at h
  induction fs with
  | nil => exact absurd hv (by simp)
  | cons f fs ih =>
    obtain ⟨hf, hrest⟩ := List.forall_mem_cons.mp h
    rw [OrderedMap.get?] at hv
    split at hv
    case isTrue hname =>
      rw [← hname, ← Option.some.inj hv]
      exact hf
    case isFalse => exact ih hrest hv

/-- In place of a field that is missing stands a value with nothing wrong in it. -/
theorem Everywhere.getD {fs : List (String × Json)} (h : Everywhere P (.obj fs)) (name : String)
    {default : Json} (hdefault : Everywhere P default) :
    Everywhere P ((OrderedMap.get? fs name).getD default) := by
  cases hget : OrderedMap.get? fs name with
  | none => exact hdefault
  | some found => exact (h.of_get? hget).2

/-! ## Several statements -/

mutual

/-- What two statements say together holds where both of them do. -/
theorem Everywhere.imp₂ (himp : ∀ name v, P name v → Q name v → R name v) :
    ∀ {v : Json}, Everywhere P v → Everywhere Q v → Everywhere R v
  | .arr _, h, k => EverywhereItems.imp₂ himp h k
  | .obj _, h, k => EverywhereFields.imp₂ himp h k
  | .null, _, _ => trivial
  | .bool _, _, _ => trivial
  | .int _, _, _ => trivial
  | .float _, _, _ => trivial
  | .str _, _, _ => trivial

theorem EverywhereItems.imp₂ (himp : ∀ name v, P name v → Q name v → R name v) :
    ∀ {vs : List Json}, EverywhereItems P vs → EverywhereItems Q vs → EverywhereItems R vs
  | [], _, _ => trivial
  | _ :: _, h, k => ⟨Everywhere.imp₂ himp h.1 k.1, EverywhereItems.imp₂ himp h.2 k.2⟩

theorem EverywhereFields.imp₂ (himp : ∀ name v, P name v → Q name v → R name v) :
    ∀ {fs : List (String × Json)}, EverywhereFields P fs → EverywhereFields Q fs →
      EverywhereFields R fs
  | [], _, _ => trivial
  | (name, v) :: _, h, k =>
    ⟨himp name v h.1 k.1, Everywhere.imp₂ himp h.2.1 k.2.1,
      EverywhereFields.imp₂ himp h.2.2 k.2.2⟩

end

end Lightpath.Json
