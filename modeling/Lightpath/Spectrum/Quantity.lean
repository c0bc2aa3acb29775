import Lightpath.Spectrum.Slot
import Lightpath.Json.Writer

/-!
# Frequencies as they are given

Frequencies and widths reach the controller as whole numbers, floating-point numbers or texts. This module
does the arithmetic on them before they become whole Hz.
-/

namespace Lightpath.Spectrum

open Lightpath.Numeral

/-! ## Arithmetic -/

/-- A number as it is given. -/
inductive Quantity where
  | whole (n : Int)
  | real (x : Float)
  deriving Repr

namespace Quantity

/-- The number that a value stands for; true and false are one and zero. -/
def ofJson : Json → Outcome Quantity
  | .int n => .ok (.whole n)
  | .bool b => .ok (.whole (if b then 1 else 0))
  | .float x => .ok (.real x)
  | _ => .error .wrongKind

/-- A number as a floating-point number. -/
def toFloat : Quantity → Outcome Float
  | .whole n => Json.floatOfInt n
  | .real x => .ok x

/-- Applies a whole operation to two whole numbers, and a floating-point one as soon as one is not. -/
def combine (onWhole : Int → Int → Int) (onReal : Float → Float → Float) : Quantity → Quantity → Outcome Quantity
  | .whole a, .whole b => .ok (.whole (onWhole a b))
  | a, b => do return .real (onReal (← a.toFloat) (← b.toFloat))

/-- The sum. -/
def add : Quantity → Quantity → Outcome Quantity :=
  combine (· + ·) (· + ·)

/-- The difference. -/
def sub : Quantity → Quantity → Outcome Quantity :=
  combine (· - ·) (· - ·)

/-- The product. -/
def mul : Quantity → Quantity → Outcome Quantity :=
  combine (· * ·) (· * ·)

/-- The largest whole number not above half of a number; there is none for an infinity. -/
def half : Quantity → Quantity
  | .whole n => .whole (Int.fdiv n 2)
  | .real x =>
    match parts x with
    | .finite n m e =>
      match (Parts.finite n m (e - 1)).floor? with
      | some k => if k = 0 ∧ n then .real (-0.0) else .real (nearestWhole k)
      | none => .real notANumber
    | _ => .real notANumber

/-- The whole number, with a fraction cut off. -/
def toWhole : Quantity → Outcome Int
  | .whole n => .ok n
  | .real x => Json.toWhole (.float x)

end Quantity

/-! ## Slots from given numbers -/

/-- The slot of a central frequency and a width in Hz as they are given. -/
def Slot.fromGiven (central width : Json) (grid : GridType) (spacing : Spacing) : Outcome Slot := do
  let c ← central.toWhole
  let w ← width.toWhole
  fromCentralAndWidth c w grid spacing

/-- The slot between two edges in Hz as they are given. -/
def Slot.fromGivenBounds (lower upper : Json) (grid : GridType) (spacing : Spacing) : Outcome Slot := do
  -- a difference is taken before either operand is looked at on its own
  let l ← Quantity.ofJson lower
  let u ← Quantity.ofJson upper
  let width ← u.sub l
  let central ← l.add width.half
  let c ← central.toWhole
  let w ← width.toWhole
  fromCentralAndWidth c w grid spacing

/-- The slot of an operator's central frequency in MHz and width in GHz. The finest spacing is taken, so
that any channel of a flexible grid can be told. -/
def Slot.ofOrder (mhz ghz : Json) : Outcome Slot := do
  let c ← mhz.toWhole
  let w ← match ghz with
    | .str _ => Except.error Failure.unreadable
    | v => do
      let q ← Quantity.ofJson v
      (← q.mul (.whole 1000000000)).toWhole
  fromCentralAndWidth (c * 1000000) w .flex .ghz6p25

/-! ## Multipliers of bare frequencies -/

/-- The failure that a fault of decimal arithmetic is. -/
def failureOf : DecimalFault → Failure
  | .undefined => .undefinedDecimal
  | .overflow => .decimalTooLarge
  | .infinite => .outOfRange
  | .notANumber => .unreadable

/-- The outcome of decimal arithmetic. -/
def decimalOutcome {α : Type} : Except DecimalFault α → Outcome α
  | .ok a => .ok a
  | .error e => .error (failureOf e)

/-- The frequency from which a grid counts bare frequencies, in GHz. -/
def anchorGHz : GridType → Decimal
  | .dwdm => .finite false 193100 0
  | _ => .finite false 0 0

/-- The multiplier of a frequency in GHz: its distance from the anchor in steps of the spacing in THz,
with 28 significant digits in each step of the computation and the fraction cut off. -/
def multiplierOf (ghz : Decimal) (grid : GridType) (spacing : Spacing) : Except DecimalFault Int := do
  let distance ← (← ghz.sub (anchorGHz grid)).abs
  (← distance.div spacing.thz).toInt

/-- The multiplier of a frequency in GHz as it is given. -/
def multiplierOfGiven (ghz : Json) (grid : GridType) (spacing : Spacing) : Outcome Int :=
  decimalOutcome do multiplierOf (← Decimal.read ghz.display.toList) grid spacing

/-! ## Channels of coherent devices -/

/-- The number of channels of a coherent terminal device. -/
def lambdaCount : Int := 96

/-- The central frequency of the first of them, in GHz. -/
def lambdaStartGHz : Int := 191350

/-- The slots of a row of channels on the 50 GHz grid, lowest frequency first. -/
def lambdas (count start : Int) : List Slot :=
  let first := (start * 1000000000 - anchorHz).tdiv (Spacing.hz .ghz50)
  (List.range count.toNat).map fun (i : Nat) => ⟨.dwdm, .ghz50, first + (i : Int), 4⟩

/-- How many whole units a distance holds, cut toward zero. -/
def wholeUnits (distance : Float) (unit : Nat) : Float :=
  match parts distance with
  | .finite negative m e =>
    let (num, den) := if 0 ≤ e then (m * power 2 e.toNat, unit) else (m, unit * power 2 (-e).toNat)
    let quotient := nearestWhole (num / den : Nat)
    if negative then -quotient else quotient
  | _ => notANumber

/-- The slots of a row of channels whose start need not be whole. -/
def lambdasFromReal (count : Int) (start : Float) : Outcome (List Slot) :=
  let distance := start * nearestWhole 1000000000 - nearestWhole anchorHz
  let first := wholeUnits distance (Spacing.hz .ghz50).toNat
  (List.range count.toNat).mapM fun (i : Nat) =>
    let multiplier := (Form.wholeFloat (first + nearestWhole i)).under (.field "spacing_multiplier")
    (multiplier.map fun m => Slot.mk .dwdm .ghz50 m 4).outcome

/-- The slots of a row of channels whose count and start may be given: the count as a whole number, the
start as any number. -/
def lambdasOfGiven (count start : Option Json) : Outcome (List Slot) := do
  let q ← match start with
    | none => pure (.whole lambdaStartGHz)
    | some v => Quantity.ofJson v
  let n ← match count with
    | none => pure lambdaCount
    | some (.int n) => pure n
    | some (.bool b) => pure (if b then 1 else 0)
    | some _ => throw Failure.wrongKind
  match q with
  | .whole start => return lambdas n start
  | .real start => lambdasFromReal n start

end Lightpath.Spectrum
