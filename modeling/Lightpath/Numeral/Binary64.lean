import Lightpath.Numeral.Power

/-!
# Binary floating point

A finite floating-point number is a whole number of units of a power of two. This module takes a number
apart into that form, rounds a quotient of whole numbers to the nearest number with ties going to the
even neighbour, and cuts the fraction off.
-/

namespace Lightpath.Numeral

/-! ## Taking apart -/

/-- What a floating-point number stands for: `mantissa * 2 ^ exponent` with a sign when it is finite. -/
inductive Parts where
  | notANumber
  | infinite (negative : Bool)
  | finite (negative : Bool) (mantissa : Nat) (exponent : Int)
  deriving DecidableEq, Repr

/-- The parts that a 64-bit word encodes. -/
def Parts.ofWord (w : Nat) : Parts :=
  let negative := decide (w / power 2 63 % 2 = 1)
  let field : Nat := w / power 2 52 % power 2 11
  let fraction : Nat := w % power 2 52
  if field = 2047 then
    if fraction = 0 then .infinite negative else .notANumber
  else if field = 0 then .finite negative fraction (-1074)
  else .finite negative (power 2 52 + fraction) ((field : Int) - 1075)

/-- Takes a floating-point number apart. -/
def parts (x : Float) : Parts :=
  Parts.ofWord x.toBits.toNat

/-! ## Rounding -/

/-- The nearest whole number to `num / den`, a half going to the even neighbour. -/
def roundHalfEven (num den : Nat) : Nat :=
  let q := num / den
  let r := num % den
  if 2 * r < den then q
  else if den < 2 * r then q + 1
  else if q % 2 = 0 then q else q + 1

/-- Multiplies `num / den` by `2 ^ -e`. -/
def scaleBack (num den : Nat) (e : Int) : Nat × Nat :=
  if e < 0 then (num * power 2 (-e).toNat, den) else (num, den * power 2 e.toNat)

/-- The exponent of the unit in which `num / den` has 53 binary digits, but never below -1074. -/
def unitExponent (num den : Nat) : Int :=
  let e : Int := (num.log2 : Int) - den.log2 - 52
  let (n, d) := scaleBack num den e
  max (if n < d * power 2 52 then e - 1 else e) (-1074)

/-- The word of positive infinity; every greater word is not a number. -/
def infinityWord : Nat := 0x7FF0000000000000

/-- The word of the floating-point number nearest to `num / den`, where `den` is positive. -/
def nearestWord (num den : Nat) : Nat :=
  if num = 0 then 0
  else
    let e := unitExponent num den
    let (n, d) := scaleBack num den e
    min ((e + 1074).toNat * power 2 52 + roundHalfEven n d) infinityWord

/-- The floating-point number nearest to a signed quotient. -/
def nearest (negative : Bool) (num den : Nat) : Float :=
  Float.ofBits (UInt64.ofNat (nearestWord num den + (if negative then power 2 63 else 0)))

/-- The floating-point number nearest to a whole number. -/
def nearestWhole (n : Int) : Float :=
  nearest (decide (n < 0)) n.natAbs 1

/-- The floating-point number nearest to `± m * 10 ^ e`. -/
def nearestDecimal (negative : Bool) (m : Nat) (e : Int) : Float :=
  if m = 0 then nearest negative 0 1
  else
    -- far outside the range the power of ten need not be computed
    let top : Int := (m.log2 : Int) / 4 + e
    let high : Int := (m.log2 : Int) + e
    if 400 < top then nearest negative (power 2 1024) 1
    else if high < -400 then nearest negative 0 1
    else if 0 ≤ e then nearest negative (m * power 10 e.toNat) 1
    else nearest negative m (power 10 (-e).toNat)

/-! ## Whole parts -/

/-- The whole part of a finite number, cut toward zero. -/
def Parts.whole? : Parts → Option Int
  | .finite negative m e =>
    let n := if 0 ≤ e then m * power 2 e.toNat else m / power 2 (-e).toNat
    some (if negative then -(n : Int) else n)
  | _ => none

/-- The whole part of a floating-point number, when it is finite. -/
def truncated? (x : Float) : Option Int :=
  (parts x).whole?

/-- The largest whole number that is not above a finite number. -/
def Parts.floor? : Parts → Option Int
  | .finite negative m e =>
    if 0 ≤ e then some (if negative then -((m * power 2 e.toNat : Nat) : Int) else m * power 2 e.toNat)
    else
      let d : Nat := power 2 (-e).toNat
      some (if negative then Int.fdiv (-(m : Int)) d else m / d)
  | _ => none

/-- Whether a finite number has no fraction. -/
def Parts.isWhole : Parts → Bool
  | .finite _ m e => 0 ≤ e || m % power 2 (-e).toNat == 0
  | _ => false

/-- Whether a number is neither an infinity nor not a number. -/
def Parts.isFinite : Parts → Bool
  | .finite .. => true
  | _ => false

end Lightpath.Numeral
