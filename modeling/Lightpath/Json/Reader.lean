import Lightpath.Json.Basic
import Lightpath.Numeral.Reading

/-!
# Reading JSON text

The reader accepts JSON with the words `NaN`, `Infinity` and `-Infinity`. Of two fields of one name the
later value counts, at the place of the first. A number with a point or an exponent is a floating-point
number, any other a whole number of at most `Numeral.maxDigits` digits. A text that is no JSON is refused
at the place where the reader stopped. Lists and objects may be nested to any depth; the bound that the stack
of a machine sets to it is no part of the reader.
-/

namespace Lightpath.Json

open Lightpath.Text Lightpath.Numeral

/-! ## Trouble -/

/-- Why a text is not read; a place is given by the number of characters from it to the end. -/
inductive Trouble where
  | syntax_ (left : Nat)
  | hugeNumber
  deriving DecidableEq, Repr

/-- Why a text is not read, with the place counted from its start. -/
inductive ReadError where
  | malformed (offset : Nat)
  | hugeNumber
  deriving DecidableEq, Repr

/-- What a reading step returns: a value and the rest of the text. -/
abbrev Step (α : Type) := Except Trouble (α × List Char)

/-- Stops at the place where the rest of the text begins. -/
def stop {α : Type} (rest : List Char) : Except Trouble α :=
  .error (.syntax_ rest.length)

/-- Drops the white space of JSON at the front. -/
def skipSpace (cs : List Char) : List Char :=
  cs.dropWhile fun c => c == ' ' || c == '\t' || c == '\n' || c == '\r'

/-! ## Strings -/

/-- The value of a hexadecimal digit. -/
def hexDigit? (c : Char) : Option Nat :=
  let n := c.toNat
  if 48 ≤ n ∧ n ≤ 57 then some (n - 48)
  else if 97 ≤ n ∧ n ≤ 102 then some (n - 87)
  else if 65 ≤ n ∧ n ≤ 70 then some (n - 55)
  else none

/-- The code unit of four hexadecimal digits. -/
def codeUnit? (a b c d : Char) : Option Nat := do
  let a ← hexDigit? a
  let b ← hexDigit? b
  let c ← hexDigit? c
  let d ← hexDigit? d
  return ((a * 16 + b) * 16 + c) * 16 + d

/-- The character behind a backslash. -/
def escaped? (c : Char) : Option Char :=
  match c with
  | '"' => some '"'
  | '\\' => some '\\'
  | '/' => some '/'
  | 'b' => some '\x08'
  | 'f' => some '\x0c'
  | 'n' => some '\n'
  | 'r' => some '\r'
  | 't' => some '\t'
  | _ => none

/-- Reads the code units of a string up to its closing quote; `opening` is the place of the opening one. -/
def units (opening : Nat) : List Char → Except Trouble (List Nat × List Char)
  | [] => .error (.syntax_ opening)
  | '"' :: rest => .ok ([], rest)
  | ['\\'] => .error (.syntax_ opening)
  | '\\' :: 'u' :: a :: b :: c :: d :: rest =>
    match codeUnit? a b c d, rest with
    | some u, _ :: _ => (units opening rest).map fun (us, tail) => (u :: us, tail)
    | _, _ => .error (.syntax_ (rest.length + 5))
  | '\\' :: c :: rest =>
    if c = 'u' then .error (.syntax_ (rest.length + 1))
    else
      match escaped? c with
      | some e => (units opening rest).map fun (us, tail) => (e.toNat :: us, tail)
      | none => .error (.syntax_ (rest.length + 2))
  | c :: rest =>
    if c.toNat ≤ 31 then .error (.syntax_ (rest.length + 1))
    else (units opening rest).map fun (us, tail) => (c.toNat :: us, tail)

/-- The character of a code unit on its own; half of a surrogate pair stands for none. -/
def unitChar (u : Nat) : Char :=
  if 0xD800 ≤ u ∧ u ≤ 0xDFFF then '\uFFFD' else Char.ofNat u

/-- Joins the two halves of each surrogate pair. -/
def joinUnits : List Nat → List Char
  | [] => []
  | [u] => [unitChar u]
  | u :: v :: rest =>
    if (0xD800 ≤ u ∧ u ≤ 0xDBFF) ∧ 0xDC00 ≤ v ∧ v ≤ 0xDFFF then
      Char.ofNat (0x10000 + (u - 0xD800) * 0x400 + (v - 0xDC00)) :: joinUnits rest
    else unitChar u :: joinUnits (v :: rest)

/-- Reads a string whose opening quote has been read. -/
def string (rest : List Char) : Step String :=
  (units (rest.length + 1) rest).map fun (us, tail) => (String.ofList (joinUnits us), tail)

/-! ## Numbers -/

/-- Splits the point and the digits behind it off; without a digit there is no point. -/
def fractionPart : List Char → Option (List Nat) × List Char
  | '.' :: more =>
    match spanDigits latinDigit? more with
    | ([], _) => (none, '.' :: more)
    | (ds, tail) => (some ds, tail)
  | cs => (none, cs)

/-- Splits an exponent off; without a digit there is none. -/
def exponentPart : List Char → Option Int × List Char
  | c :: more =>
    if c = 'e' ∨ c = 'E' then
      let (negative, body) := splitSign more
      match spanDigits latinDigit? body with
      | ([], _) => (none, c :: more)
      | (ds, tail) => (some (signed negative (ofDigits ds)), tail)
    else (none, c :: more)
  | [] => (none, [])

/-- The whole part: a zero or digits that do not start with one. -/
def wholePart : List Char → Option (List Nat × List Char)
  | '0' :: rest => some ([0], rest)
  | cs =>
    match spanDigits latinDigit? cs with
    | ([], _) => none
    | (ds, tail) => some (ds, tail)

/-- Splits a leading minus sign off. -/
def minusPart : List Char → Bool × List Char
  | '-' :: rest => (true, rest)
  | cs => (false, cs)

/-- Reads a number. -/
def number (start : List Char) : Step Json :=
  let (negative, body) := minusPart start
  match wholePart body with
  | none => stop start
  | some (whole, rest) =>
    let (fraction, rest) := fractionPart rest
    let (exponent, rest) := exponentPart rest
    match fraction, exponent with
    | none, none =>
      if whole.length ≤ maxDigits then .ok (.int (signed negative (ofDigits whole)), rest)
      else .error .hugeNumber
    | _, _ =>
      .ok (.float ((⟨whole, fraction.getD [], exponent.getD 0⟩ : Literal).toFloat negative), rest)

/-! ## Values -/

/-- The words that stand for a value. -/
def words : List (List Char × Json) :=
  [("null".toList, .null), ("true".toList, .bool true), ("false".toList, .bool false),
   ("NaN".toList, .float notANumber), ("Infinity".toList, .float (infinity false)),
   ("-Infinity".toList, .float (infinity true))]

/-- Reads a word or a number. -/
def scalar (cs : List Char) : Step Json :=
  match words.find? fun w => w.1.isPrefixOf cs with
  | some (w, v) => .ok (v, cs.drop w.length)
  | none => number cs

mutual

/-- Reads a value. -/
def value : Nat → List Char → Step Json
  | 0, cs => stop cs
  | fuel + 1, cs =>
    match cs with
    | '"' :: rest => (string rest).map fun (s, tail) => (.str s, tail)
    | '[' :: rest =>
      match skipSpace rest with
      | ']' :: tail => .ok (.arr [], tail)
      | body => (items fuel body).map fun (vs, tail) => (.arr vs, tail)
    | '{' :: rest =>
      match skipSpace rest with
      | '}' :: tail => .ok (.obj [], tail)
      | body => (members fuel body).map fun (fs, tail) => (.obj (OrderedMap.ofPairs fs), tail)
    | _ => scalar cs

/-- Reads the items of a list up to its closing bracket. -/
def items : Nat → List Char → Step (List Json)
  | 0, cs => stop cs
  | fuel + 1, cs =>
    match value fuel cs with
    | .error e => .error e
    | .ok (v, rest) =>
      match skipSpace rest with
      | ']' :: tail => .ok ([v], tail)
      | ',' :: more => (items fuel (skipSpace more)).map fun (vs, tail) => (v :: vs, tail)
      | other => stop other

/-- Reads the fields of an object up to its closing brace. -/
def members : Nat → List Char → Step (List (String × Json))
  | 0, cs => stop cs
  | fuel + 1, cs =>
    match cs with
    | '"' :: rest =>
      match string rest with
      | .error e => .error e
      | .ok (name, rest) =>
        match skipSpace rest with
        | ':' :: rest =>
          match value fuel (skipSpace rest) with
          | .error e => .error e
          | .ok (v, rest) =>
            match skipSpace rest with
            | '}' :: tail => .ok ([(name, v)], tail)
            | ',' :: more =>
              (members fuel (skipSpace more)).map fun (fs, tail) => ((name, v) :: fs, tail)
            | other => stop other
        | other => stop other
    | _ => stop cs

end

/-- Reads a text that holds one value and white space. -/
def parseChars (cs : List Char) : Except Trouble Json :=
  match value (2 * cs.length + 2) (skipSpace cs) with
  | .error e => .error e
  | .ok (v, rest) =>
    match skipSpace rest with
    | [] => .ok v
    | other => stop other

/-- Reads a JSON text. A byte order mark in front is no part of JSON. -/
def parse (s : String) : Except ReadError Json :=
  let cs := s.toList
  match cs.head? with
  | some '\uFEFF' => .error (.malformed 0)
  | _ =>
    match parseChars cs with
    | .ok v => .ok v
    | .error (.syntax_ left) => .error (.malformed (cs.length - left))
    | .error .hugeNumber => .error .hugeNumber

end Lightpath.Json
