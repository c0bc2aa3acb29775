import Lightpath.Numeral.Whole
import Lightpath.Numeral.Binary64

/-!
# Floating-point numbers in text

A floating-point number is written as digits with an optional point and an optional exponent, or as one of
the words for infinity and for no number in any case. Replies of devices may use the digits of any script
and low lines between digits; forms accept the Latin digits only.
-/

namespace Lightpath.Numeral

open Lightpath.Text

/-! ## Plain decimals -/

/-- A decimal number as it is written: `whole.fraction * 10 ^ exponent`. -/
structure Literal where
  whole : List Nat
  fraction : List Nat
  exponent : Int
  deriving DecidableEq, Repr

/-- Splits off the digits at the front. -/
def spanDigits (digit : Char → Option Nat) : List Char → List Nat × List Char
  | [] => ([], [])
  | c :: rest =>
    match digit c with
    | some d => let (ds, tail) := spanDigits digit rest; (d :: ds, tail)
    | none => ([], c :: rest)

/-- Reads an exponent, given what stands behind the digits. -/
def exponentOf (digit : Char → Option Nat) : List Char → Option Int
  | [] => some 0
  | c :: rest =>
    if c = 'e' ∨ c = 'E' then
      let (negative, body) := splitSign rest
      match spanDigits digit body with
      | (d :: ds, []) => some (signed negative (ofDigits (d :: ds)))
      | _ => none
    else none

/-- Reads an unsigned decimal number with at least one digit before its exponent. -/
def literal? (digit : Char → Option Nat) (cs : List Char) : Option Literal :=
  let (whole, rest) := spanDigits digit cs
  let (fraction, rest) := match rest with
    | '.' :: more => spanDigits digit more
    | _ => ([], rest)
  if whole.isEmpty && fraction.isEmpty then none
  else (exponentOf digit rest).map (⟨whole, fraction, ·⟩)

/-- The floating-point number nearest to a decimal number. -/
def Literal.toFloat (l : Literal) (negative : Bool) : Float :=
  nearestDecimal negative (ofDigits (l.whole ++ l.fraction)) (l.exponent - l.fraction.length)

/-! ## Words -/

/-- The letters of a text in lower case; only the Latin letters have a case here. -/
def lowered (cs : List Char) : List Char :=
  cs.map Char.toLower

/-- Whether a text is the word for infinity. -/
def isInfinityWord (cs : List Char) : Bool :=
  let l := lowered cs
  l == ['i', 'n', 'f'] || l == ['i', 'n', 'f', 'i', 'n', 'i', 't', 'y']

/-- Whether a text is the word for no number. -/
def isNanWord (cs : List Char) : Bool :=
  lowered cs == ['n', 'a', 'n']

/-- Positive or negative infinity. -/
def infinity (negative : Bool) : Float :=
  nearest negative (power 2 1024) 1

/-- No number. -/
def notANumber : Float :=
  Float.ofBits 0x7FF8000000000000

/-- Reads a signed number or word. -/
def readPlain (digit : Char → Option Nat) (cs : List Char) : Option Float :=
  let (negative, body) := splitSign cs
  if isInfinityWord body then some (infinity negative)
  else if isNanWord body then some notANumber
  else (literal? digit body).map (·.toFloat negative)

/-! ## Low lines -/

/-- Removes the low lines of a text, each of which has to stand between two digits. -/
def dropLowLines (digit : Char → Option Nat) : Bool → List Char → Option (List Char)
  | _, [] => some []
  | follows, c :: rest =>
    if c = '_' then
      match rest with
      | n :: _ => if follows && (digit n).isSome then dropLowLines digit false rest else none
      | [] => none
    else (dropLowLines digit (digit c).isSome rest).map (c :: ·)

/-- Reads a floating-point number; white space around it does not count. -/
def readFloat (text : List Char) : Option Float :=
  (dropLowLines digit? false (trimBy isSpace text)).bind (readPlain digit?)

/-- Reads a floating-point number from a string. -/
def floatOf (s : String) : Option Float :=
  readFloat s.toList

end Lightpath.Numeral
