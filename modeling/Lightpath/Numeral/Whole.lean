import Lightpath.Text.Blank
import Lightpath.Text.Digit

/-!
# Whole numbers in text

A whole number is written with an optional sign and decimal digits of any script, with white space
around it and a single low line between two digits where the writer wants one.
-/

namespace Lightpath.Numeral

open Lightpath.Text

/-! ## Digits -/

/-- The most digits that a written whole number may have. -/
def maxDigits : Nat := 4300

/-- A number that can be written: it has no more digits than are read. Numbers that come from a text are all
such numbers, and of those that are computed it is asked where they are written into a text that may fail. -/
def Writable (n : Int) : Prop :=
  (Nat.toDigits 10 n.natAbs).length ≤ maxDigits

instance : DecidablePred Writable :=
  fun _ => inferInstanceAs (Decidable (_ ≤ _))

/-- Reads a run of digits to its end; `follows` says that a digit stands just before. -/
def digitsFrom (digit : Char → Option Nat) : Bool → List Char → Option (List Nat)
  | follows, [] => if follows then some [] else none
  | follows, c :: rest =>
    if c = '_' then
      if follows then digitsFrom digit false rest else none
    else
      match digit c with
      | some d => (digitsFrom digit true rest).map (d :: ·)
      | none => none

/-- Reads a run of digits, with single low lines between them. -/
def digits? (cs : List Char) : Option (List Nat) :=
  digitsFrom digit? false cs

/-- The number that a run of digits stands for. -/
def ofDigits (ds : List Nat) : Nat :=
  ds.foldl (fun n d => 10 * n + d) 0

/-! ## Signs -/

/-- Splits off a leading sign; the flag says that it was a minus. -/
def splitSign : List Char → Bool × List Char
  | '-' :: rest => (true, rest)
  | '+' :: rest => (false, rest)
  | cs => (false, cs)

/-- A number with its sign. -/
def signed (negative : Bool) (n : Nat) : Int :=
  if negative then -(n : Int) else n

/-- Reads a whole number; white space around it does not count. -/
def readWhole (text : List Char) : Option Int :=
  let (negative, body) := splitSign (trimBy isSpace text)
  match digits? body with
  | some ds => if ds.length ≤ maxDigits then some (signed negative (ofDigits ds)) else none
  | none => none

/-- Reads a whole number from a string. -/
def wholeOf (s : String) : Option Int :=
  readWhole s.toList

end Lightpath.Numeral
