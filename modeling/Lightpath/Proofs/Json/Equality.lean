import Lightpath.Json.Basic

/-!
# Equality of JSON values

Whether two JSON values are equal can be computed; floating-point numbers are equal when their words are.
-/

namespace Lightpath.Json

mutual

/-- Whether two values are equal. -/
def same : Json → Json → Bool
  | .null, .null => true
  | .bool a, .bool b => decide (a = b)
  | .int m, .int n => decide (m = n)
  | .float x, .float y => decide (x = y)
  | .str s, .str t => decide (s = t)
  | .arr vs, .arr ws => sameItems vs ws
  | .obj fs, .obj gs => sameFields fs gs
  | _, _ => false

/-- Whether two lists of values are equal. -/
def sameItems : List Json → List Json → Bool
  | [], [] => true
  | v :: vs, w :: ws => same v w && sameItems vs ws
  | _, _ => false

/-- Whether two lists of fields are equal. -/
def sameFields : List (String × Json) → List (String × Json) → Bool
  | [], [] => true
  | (k, v) :: fs, (l, w) :: gs => decide (k = l) && same v w && sameFields fs gs
  | _, _ => false

end

mutual

theorem same_iff (v w : Json) : same v w = true ↔ v = w := by
  cases v with
  | null => cases w <;> simp [same]
  | bool a => cases w <;> simp [same]
  | int n => cases w <;> simp [same]
  | float x => cases w <;> simp [same]
  | str s => cases w <;> simp [same]
  | arr vs =>
    cases w with
    | arr ws => rw [same, sameItems_iff, Json.arr.injEq]
    | _ => simp [same]
  | obj fs =>
    cases w with
    | obj gs => rw [same, sameFields_iff, Json.obj.injEq]
    | _ => simp [same]

theorem sameItems_iff (vs ws : List Json) : sameItems vs ws = true ↔ vs = ws := by
  cases vs with
  | nil => cases ws <;> simp [sameItems]
  | cons v vs =>
    cases ws with
    | nil => simp [sameItems]
    | cons w ws => rw [sameItems, Bool.and_eq_true, same_iff v w, sameItems_iff vs ws, List.cons.injEq]

theorem sameFields_iff (fs gs : List (String × Json)) : sameFields fs gs = true ↔ fs = gs := by
  cases fs with
  | nil => cases gs <;> simp [sameFields]
  | cons f fs =>
    obtain ⟨k, v⟩ := f
    cases gs with
    | nil => simp [sameFields]
    | cons g gs =>
      obtain ⟨l, w⟩ := g
      rw [sameFields, Bool.and_eq_true, Bool.and_eq_true, decide_eq_true_iff, same_iff v w,
        sameFields_iff fs gs, List.cons.injEq, Prod.mk.injEq]

end

instance : DecidableEq Json :=
  fun v w => decidable_of_iff (same v w = true) (same_iff v w)

end Lightpath.Json
