import Lightpath.Form.Checked
import Lightpath.Json.Access

/-!
# Checks of single values

A form takes a number also as a text, a whole number also as a floating-point number without a fraction,
and a truth value also as one of a few words or numbers. Numbers in text use the Latin digits.
-/

namespace Lightpath.Form

open Lightpath.Text Lightpath.Numeral

/-- A check of a value. -/
abbrev Check (α : Type) := Json → Checked α

/-! ## Whole numbers -/

/-- Splits a text at its first point. -/
def splitPoint (cs : List Char) : List Char × Option (List Char) :=
  match cs.dropWhile (· ≠ '.') with
  | _ :: rest => (cs.takeWhile (· ≠ '.'), some rest)
  | [] => (cs, none)

/-- Reads a whole number: a sign, digits with single low lines between them, and perhaps a point with
zeros behind it. -/
def wholeText (text : List Char) : Checked Int :=
  let (negative, body) := splitSign (trimBy isSpace text)
  let (digits, places) := splitPoint body
  let placesOk := match places with
    | none => true
    | some zs => !zs.isEmpty && zs.all (· == '0')
  match digitsFrom latinDigit? false digits with
  | some ds =>
    if !placesOk then .fail .intParsing
    else if maxDigits < (ds.dropWhile (· == 0)).length then .fail .intParsingSize
    else .ok (signed negative (ofDigits ds))
  | none => .fail .intParsing

/-- A floating-point number as a whole number of at most 64 bits. -/
def wholeFloat (x : Float) : Checked Int :=
  let p := parts x
  match p.whole? with
  | none => .fail .finiteNumber
  | some n =>
    if !p.isWhole then .fail .intFromFloat
    else if -9223372036854775808 < n ∧ n < 9223372036854775808 then .ok n
    else .fail .intParsingSize

/-- A whole number. -/
def whole : Check Int
  | .int n => .ok n
  | .bool b => .ok (if b then 1 else 0)
  | .float x => wholeFloat x
  | .str s => wholeText s.toList
  | _ => .fail .intType

/-! ## Floating-point numbers -/

/-- Takes single low lines out of a text that neither starts nor ends with one. -/
def withoutLowLines : List Char → Option (List Char)
  | [] => some []
  | ['_'] => none
  | '_' :: '_' :: _ => none
  | '_' :: rest => withoutLowLines rest
  | c :: rest => (withoutLowLines rest).map (c :: ·)

/-- Reads a floating-point number. -/
def realText (text : List Char) : Checked Float :=
  let cs := trimBy isSpace text
  match readPlain latinDigit? cs with
  | some x => .ok x
  | none =>
    if cs.head? = some '_' then .fail .floatParsing
    else
      match (withoutLowLines cs).bind (readPlain latinDigit?) with
      | some x => .ok x
      | none => .fail .floatParsing

/-- A floating-point number. -/
def real : Check Float
  | .int n =>
    match Json.floatOfInt n with
    | .ok x => .ok x
    | .error _ => .fail .floatType
  | .bool b => .ok (if b then 1.0 else 0.0)
  | .float x => .ok x
  | .str s => realText s.toList
  | _ => .fail .floatType

/-! ## Texts and truth values -/

/-- A text. -/
def text : Check String
  | .str s => .ok s
  | _ => .fail .stringType

/-- The words that stand for a truth value. -/
def truthWords : List (String × Bool) :=
  [("0", false), ("off", false), ("f", false), ("false", false), ("n", false), ("no", false),
   ("1", true), ("on", true), ("t", true), ("true", true), ("y", true), ("yes", true)]

/-- A truth value. -/
def truth : Check Bool
  | .bool b => .ok b
  | .int n => if n = 0 then .ok false else if n = 1 then .ok true else .fail .boolParsing
  | .float x => if x == 0 then .ok false else if x == 1 then .ok true else .fail .boolType
  | .str s =>
    match truthWords.lookup (String.ofList (lowered s.toList)) with
    | some b => .ok b
    | none => .fail .boolParsing
  | _ => .fail .boolType

/-- One of some values, given by its name. -/
def choice {α : Type} (names : List (String × α)) : Check α
  | .str s =>
    match names.lookup s with
    | some a => .ok a
    | none => .fail .choice
  | _ => .fail .choice

/-- One of some values, given by its number. -/
def numberedChoice {α : Type} (numbers : List (Int × α)) (v : Json) : Checked α :=
  match whole v with
  | .ok n =>
    match numbers.lookup n with
    | some a => .ok a
    | none => .fail .choice
  | .bad _ => .fail .choice

end Lightpath.Form
