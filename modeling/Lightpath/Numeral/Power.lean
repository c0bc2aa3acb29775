/-!
# Powers

Powers of natural numbers, which scale significands by the base of their numeral system.
-/

namespace Lightpath.Numeral

/-- The base, multiplied with itself so many times. -/
def power (base exponent : Nat) : Nat :=
  Nat.pow base exponent

@[simp] theorem power_zero (base : Nat) : power base 0 = 1 := rfl

end Lightpath.Numeral
