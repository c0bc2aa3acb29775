import Lightpath.Numeral.Power
import Lightpath.Numeral.Whole

/-!
# Decimal arithmetic

Exact decimal numbers and arithmetic with 28 significant digits, a half going to the even neighbour. The
distance of a frequency from the anchor of the grid, and the number of steps in it, are computed with it.
-/

namespace Lightpath.Numeral

open Lightpath.Text

/-! ## Numbers -/

/-- A decimal number; `finite` stands for `± coefficient * 10 ^ exponent`. -/
inductive Decimal where
  | finite (negative : Bool) (coefficient : Nat) (exponent : Int)
  | infinite (negative : Bool)
  /-- no number; an operation on a signalling one fails -/
  | notANumber (signalling : Bool)
  deriving DecidableEq, Repr

/-- Why decimal arithmetic has no answer. -/
inductive DecimalFault where
  /-- the text is no decimal number, or the operation has no meaning -/
  | undefined
  /-- the result is too large -/
  | overflow
  /-- the number is infinite where a whole number is wanted -/
  | infinite
  /-- there is no number where a whole number is wanted -/
  | notANumber
  deriving DecidableEq, Repr

/-- A whole number as a decimal. -/
def Decimal.ofInt (n : Int) : Decimal :=
  .finite (decide (n < 0)) n.natAbs 0

namespace Decimal

/-- The significant digits of a result. -/
def precision : Nat := 28

/-- The largest exponent of a result's first digit. -/
def maxExponent : Int := 999999

/-- The largest exponent of a number that is read from a text. -/
def maxWrittenExponent : Int := 999999999999999999

/-- How many decimal digits a number has; none for zero. -/
def digitCount (n : Nat) : Nat :=
  if n = 0 then 0
  else
    let guess := n.log2 * 30103 / 100000
    if n < power 10 guess then guess else if n < power 10 (guess + 1) then guess + 1 else guess + 2

/-! ## Rounding -/

/-- The nearest whole number to `num / den`, a half going to the even neighbour. -/
def nearestQuotient (num den : Nat) : Nat :=
  let q := num / den
  let r := num % den
  if 2 * r < den then q
  else if den < 2 * r then q + 1
  else if q % 2 = 0 then q else q + 1

/-- Rounds `± num / den * 10 ^ exponent` to the precision. -/
def rounded (negative : Bool) (num den : Nat) (exponent : Int) : Except DecimalFault Decimal :=
  if num = 0 then .ok (.finite negative 0 exponent)
  else
    let whole := digitCount (num / den)
    -- enough digits after the point that the quotient has at least the precision
    let shift : Int := if precision < whole then (whole : Int) - precision else 0
    let extra : Nat :=
      if precision < whole then 0 else precision + digitCount den - digitCount num + 1
    if den = 1 ∧ whole ≤ precision then finish negative num exponent
    else
      let num' := num * power 10 extra
      let surplus := digitCount (num' / (den * power 10 shift.toNat)) - precision
      let k := nearestQuotient num' (den * power 10 (shift.toNat + surplus))
      finish negative k (exponent - extra + shift + surplus)
where
  /-- Refuses what is too large; a carry into one more digit leaves a zero at the end. -/
  finish (negative : Bool) (k : Nat) (e : Int) : Except DecimalFault Decimal :=
    if k ≠ 0 ∧ maxExponent < (digitCount k : Int) + e - 1 then .error .overflow
    else .ok (.finite negative k e)

/-- Rounds a number to the precision. -/
def round : Decimal → Except DecimalFault Decimal
  | .finite negative c e => rounded negative c 1 e
  | d => .ok d

/-! ## Operations -/

/-- Stands in for a number that is too small to show beside the other operand of a sum. -/
def clamp (large small : Nat × Int) : Nat × Int :=
  let floor := large.2 + min (-1) ((digitCount large.1 : Int) - precision - 2)
  if (digitCount small.1 : Int) + small.2 - 1 < floor then (1, floor) else small

/-- The exact sum of two numbers on one exponent, with its sign. -/
def sumOn (n₁ : Bool) (c₁ : Nat) (n₂ : Bool) (c₂ : Nat) : Bool × Nat :=
  let s := signed n₁ c₁ + signed n₂ c₂
  (decide (s < 0), s.natAbs)

/-- The sum of two finite numbers, neither of them zero. -/
def addFinite (n₁ : Bool) (x₁ : Nat × Int) (n₂ : Bool) (x₂ : Nat × Int) : Except DecimalFault Decimal :=
  let (y₁, y₂) :=
    if x₁.2 < x₂.2 then (clamp x₂ x₁, x₂) else (x₁, clamp x₁ x₂)
  let e := min y₁.2 y₂.2
  let (negative, c) :=
    sumOn n₁ (y₁.1 * power 10 (y₁.2 - e).toNat) n₂ (y₂.1 * power 10 (y₂.2 - e).toNat)
  rounded negative c 1 e

/-- The rounded sum. -/
def add : Decimal → Decimal → Except DecimalFault Decimal
  | .notANumber true, _ => .error .undefined
  | _, .notANumber true => .error .undefined
  | .notANumber false, _ => .ok (.notANumber false)
  | _, .notANumber false => .ok (.notANumber false)
  | .infinite n₁, .infinite n₂ => if n₁ = n₂ then .ok (.infinite n₁) else .error .undefined
  | .infinite n, _ => .ok (.infinite n)
  | _, .infinite n => .ok (.infinite n)
  | .finite n₁ c₁ e₁, .finite n₂ c₂ e₂ =>
    if c₁ = 0 then (if c₂ = 0 then .ok (.finite (n₁ && n₂) 0 (min e₁ e₂)) else rounded n₂ c₂ 1 e₂)
    else if c₂ = 0 then rounded n₁ c₁ 1 e₁
    else addFinite n₁ (c₁, e₁) n₂ (c₂, e₂)

/-- The number with the other sign. -/
def neg : Decimal → Decimal
  | .finite n c e => .finite (!n) c e
  | .infinite n => .infinite (!n)
  | d => d

/-- The rounded difference. -/
def sub (a b : Decimal) : Except DecimalFault Decimal :=
  add a (neg b)

/-- The rounded product of a number with a finite number. -/
def mul : Decimal → Decimal → Except DecimalFault Decimal
  | .finite n₁ c₁ e₁, .finite n₂ c₂ e₂ => rounded (n₁ != n₂) (c₁ * c₂) 1 (e₁ + e₂)
  | _, _ => .error .undefined

/-- The rounded distance from zero. -/
def abs : Decimal → Except DecimalFault Decimal
  | .finite _ c e => rounded false c 1 e
  | .infinite _ => .ok (.infinite false)
  | .notANumber true => .error .undefined
  | d => .ok d

/-- The rounded quotient of a number by a finite number other than zero. -/
def div : Decimal → Decimal → Except DecimalFault Decimal
  | .notANumber false, _ => .ok (.notANumber false)
  | .infinite n, .finite m _ _ => .ok (.infinite (n != m))
  | .finite n₁ c₁ e₁, .finite n₂ c₂ e₂ =>
    if c₂ = 0 then .error .undefined else rounded (n₁ != n₂) c₁ c₂ (e₁ - e₂)
  | _, _ => .error .undefined

/-- The whole part, cut toward zero. -/
def toInt : Decimal → Except DecimalFault Int
  | .finite n c e =>
    if 0 ≤ e then .ok (signed n (c * power 10 e.toNat))
    else if (digitCount c : Int) + e ≤ 0 then .ok 0
    else .ok (signed n (c / power 10 (-e).toNat))
  | .infinite _ => .error .infinite
  | .notANumber _ => .error .notANumber

/-! ## Reading -/

/-- Replaces the digits of other scripts by the Latin ones and drops the low lines. -/
def latinized (cs : List Char) : List Char :=
  (cs.filter (· ≠ '_')).map fun c =>
    match digit? c with
    | some d => Char.ofNat (48 + d)
    | none => c

/-- The number of a run of Latin digits, which may be empty. -/
def payload? (cs : List Char) : Bool :=
  cs.all fun c => (latinDigit? c).isSome

/-- Takes off a word in lower case letters, whatever its case. -/
def dropWord (word : List Char) (cs : List Char) : Option (List Char) :=
  if (cs.take word.length).map Char.toLower = word then some (cs.drop word.length) else none

/-- Splits off the Latin digits at the front. -/
def spanLatin (cs : List Char) : List Nat × List Char :=
  ((cs.takeWhile fun c => (latinDigit? c).isSome).filterMap latinDigit?,
    cs.dropWhile fun c => (latinDigit? c).isSome)

/-- The exponent behind the digits. -/
def writtenExponent? : List Char → Option Int
  | [] => some 0
  | c :: rest =>
    if c = 'e' ∨ c = 'E' then
      let (negative, body) := splitSign rest
      match spanLatin body with
      | (d :: ds, []) => some (signed negative (ofDigits (d :: ds)))
      | _ => none
    else none

/-- Reads an unsigned number. -/
def readBody (negative : Bool) (cs : List Char) : Option Decimal :=
  match dropWord "snan".toList cs with
  | some rest => if payload? rest then some (.notANumber true) else none
  | none =>
  match dropWord "nan".toList cs with
  | some rest => if payload? rest then some (.notANumber false) else none
  | none =>
  match dropWord "inf".toList cs with
  | some [] => some (.infinite negative)
  | some rest => if dropWord "inity".toList rest = some [] then some (.infinite negative) else none
  | none =>
    let (whole, rest) := spanLatin cs
    let (fraction, rest) := match rest with
      | '.' :: more => spanLatin more
      | _ => ([], rest)
    if whole.isEmpty && fraction.isEmpty then none
    else
      match writtenExponent? rest with
      | none => none
      | some e =>
        let c := ofDigits (whole ++ fraction)
        let e := e - fraction.length
        if maxWrittenExponent < e + digitCount c - 1 ∨ e < -(2 * maxWrittenExponent - 1) then none
        else some (.finite negative c e)

/-- Reads a decimal number exactly; white space around it and low lines do not count. -/
def read (text : List Char) : Except DecimalFault Decimal :=
  let (negative, body) := splitSign (latinized (trim text))
  match readBody negative body with
  | some d => .ok d
  | none => .error .undefined

/-! ## Writing -/

/-- Writes a number without an exponent, with its places kept. -/
def plainText : Decimal → String
  | .finite n c e =>
    let ds := (toString c).toList
    let body :=
      if 0 ≤ e then ds ++ List.replicate e.toNat '0'
      else
        let k := (-e).toNat
        let padded := List.replicate (k + 1 - ds.length) '0' ++ ds
        padded.take (padded.length - k) ++ '.' :: padded.drop (padded.length - k)
    (if n then "-" else "") ++ String.ofList body
  | .infinite n => (if n then "-" else "") ++ "Infinity"
  | .notANumber s => if s then "sNaN" else "NaN"

/-- A number without the zeros at the end of its coefficient. -/
def stripped : Nat → Decimal → Decimal
  | 0, d => d
  | fuel + 1, .finite n c e => if c ≠ 0 ∧ c % 10 = 0 then stripped fuel (.finite n (c / 10) (e + 1)) else .finite n c e
  | _, d => d

end Decimal

end Lightpath.Numeral
