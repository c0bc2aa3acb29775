import Lightpath.Numeral.Binary64

/-!
# Shortest decimal digits

A floating-point number is written with the fewest decimal digits that read back as the same number, and
among those with the digits nearest to it. The reals that read back as `m * 2 ^ q` form an interval around
it; a grid of decimal numbers has a point in the interval as soon as one of the two grid points next to the
number lies in it, so trying the two neighbours on the grids of 1, 2, … 17 digits finds the shortest text.
-/

namespace Lightpath.Numeral

/-! ## Digits -/

/-- The decimal digits of a number, most significant first. -/
def decimalDigits (n : Nat) : List Char :=
  (toString n).toList

/-- A positive decimal number: `0.digits * 10 ^ point`, where the digits start and end with no zero. -/
structure Digits where
  digits : List Char
  point : Int
  deriving DecidableEq, Repr

/-- The interval of the reals that round to a number, with all its ends scaled to whole numbers over one
denominator: the number itself, its lower and upper end, and whether the ends belong to it. -/
structure Interval where
  value : Nat
  low : Nat
  high : Nat
  unit : Nat
  closed : Bool

/-- The interval that reads back as `m * 2 ^ q`. Below a power of two the next number is only half as far. -/
def Interval.around (m : Nat) (q : Int) : Interval :=
  let below := if m = power 2 52 ∧ -1074 < q then 1 else 2
  let up := if 0 ≤ q then power 2 q.toNat else 1
  let down := if 0 ≤ q then 4 else 4 * power 2 (-q).toNat
  ⟨4 * m * up, (4 * m - below) * up, (4 * m + 2) * up, down, m % 2 == 0⟩

/-- Whether `num / den` reads back as the number. -/
def Interval.holds (i : Interval) (num den : Nat) : Bool :=
  let x := num * i.unit
  if i.closed then i.low * den ≤ x && x ≤ i.high * den
  else i.low * den < x && x < i.high * den

/-- `10 ^ e` as a quotient. -/
def tenPower (e : Int) : Nat × Nat :=
  if 0 ≤ e then (power 10 e.toNat, 1) else (1, power 10 (-e).toNat)

/-- The place of the decimal point: the least `d` with `num / den < 10 ^ d`. -/
def pointOf (num den : Nat) : Int :=
  let guess : Int := ((num.log2 : Int) - den.log2) * 30103 / 100000 - 1
  let fits (d : Int) : Bool := let (a, b) := tenPower d; num * b < a * den
  ([guess, guess + 1, guess + 2, guess + 3].find? fits).getD (guess + 4)

/-- The grid point of `n` digits that reads back as the number and is nearest to it, if there is one;
a tie goes to the even neighbour. The result counts units of `10 ^ (point - n)`. -/
def Interval.onGrid (i : Interval) (point : Int) (n : Nat) : Option Nat :=
  let (a, b) := tenPower (point - n)
  -- the number is `value / unit`, a step of the grid `a / b`
  let num := i.value * b
  let den := i.unit * a
  let k := num / den
  let lowHit := i.holds (k * a) b
  let highHit := i.holds ((k + 1) * a) b
  if lowHit && highHit then
    let r := num % den
    if 2 * r < den then some k
    else if den < 2 * r then some (k + 1)
    else if k % 2 = 0 then some k else some (k + 1)
  else if lowHit then some k
  else if highHit then some (k + 1)
  else none

/-- Digits without the zeros at their end. -/
def dropTrailingZeros (ds : List Char) : List Char :=
  (ds.reverse.dropWhile (· == '0')).reverse

/-- The shortest digits that read back as `m * 2 ^ q`, for a positive `m`. -/
def shortest (m : Nat) (q : Int) : Digits :=
  let i := Interval.around m q
  let point := pointOf i.value i.unit
  let found := (List.range 17).findSome? fun n => (i.onGrid point (n + 1)).map fun k => (n + 1, k)
  let (n, k) := found.getD (17, 0)
  let ds := decimalDigits k
  -- rounding up may carry into one more digit
  ⟨dropTrailingZeros ds, point + ((ds.length : Int) - n)⟩

/-! ## Written form -/

/-- How floating-point numbers are written. -/
structure NumberStyle where
  /-- the least and the greatest place of the point that are written without an exponent -/
  leastPoint : Int
  greatestPoint : Int
  /-- the least number of digits of an exponent -/
  exponentWidth : Nat
  notANumber : String
  infinity : String

/-- The controller's notation: an exponent below `0.0001` and from `10 ^ 16` on, at least one digit after
the point otherwise, and an exponent of at least two digits with its sign. -/
def standard : NumberStyle := ⟨-3, 16, 2, "nan", "inf"⟩

/-- Zeros in front of a text up to a width. -/
def padZeros (width : Nat) (cs : List Char) : List Char :=
  List.replicate (width - cs.length) '0' ++ cs

/-- The digits around the point. -/
def Digits.positional (d : Digits) : List Char :=
  if d.point ≤ 0 then '0' :: '.' :: (List.replicate (-d.point).toNat '0' ++ d.digits)
  else
    let n := d.point.toNat
    if d.digits.length ≤ n then d.digits ++ List.replicate (n - d.digits.length) '0' ++ ['.', '0']
    else d.digits.take n ++ '.' :: d.digits.drop n

/-- One digit, the rest of the digits behind a point, and the exponent. -/
def Digits.scientific (width : Nat) (d : Digits) : List Char :=
  let e := d.point - 1
  let tail := match d.digits.drop 1 with
    | [] => []
    | rest => '.' :: rest
  d.digits.take 1 ++ tail ++ 'e' :: (if e < 0 then '-' else '+')
    :: padZeros width (decimalDigits e.natAbs)

/-- Writes the parts of a number in a notation. -/
def NumberStyle.write (s : NumberStyle) : Parts → String
  | .notANumber => s.notANumber
  | .infinite negative => (if negative then "-" else "") ++ s.infinity
  | .finite negative m q =>
    let body :=
      if m = 0 then ['0', '.', '0']
      else
        let d := shortest m q
        if s.leastPoint ≤ d.point ∧ d.point ≤ s.greatestPoint then d.positional
        else d.scientific s.exponentWidth
    (if negative then "-" else "") ++ String.ofList body

/-- The text of a floating-point number. -/
def floatText (x : Float) : String :=
  standard.write (parts x)

end Lightpath.Numeral
