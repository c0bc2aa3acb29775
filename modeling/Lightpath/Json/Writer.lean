import Lightpath.Json.Basic
import Lightpath.Numeral.Shortest

/-!
# Writing JSON text

Values are written on one line. JSON has no text for the infinities and for no number; their names are
written as strings in their place.
-/

namespace Lightpath.Json

open Lightpath.Numeral

/-- The two characters of a backslash and a letter, or the four hexadecimal digits of a control character. -/
def escapeChar (c : Char) : List Char :=
  if c = '"' then ['\\', '"']
  else if c = '\\' then ['\\', '\\']
  else if c.toNat < 32 then
    let hex := Nat.toDigits 16 c.toNat
    '\\' :: 'u' :: (List.replicate (4 - hex.length) '0' ++ hex)
  else [c]

/-- A string between quotes. -/
def quote (s : String) : List Char :=
  '"' :: (s.toList.flatMap escapeChar ++ ['"'])

/-- A floating-point number. -/
def writeFloat (x : Float) : List Char :=
  match parts x with
  | .finite n m e => (standard.write (.finite n m e)).toList
  | .notANumber => quote "NaN"
  | .infinite n => quote (if n then "-Infinity" else "Infinity")

mutual

/-- The text of a value. -/
def writeChars : Json → List Char
  | .null => "null".toList
  | .bool b => (if b then "true" else "false").toList
  | .int n => (toString n).toList
  | .float x => writeFloat x
  | .str s => quote s
  | .arr vs => '[' :: (writeItems vs ++ [']'])
  | .obj fs => '\x7b' :: (writeFields fs ++ ['\x7d'])

/-- The items of a list with commas between them. -/
def writeItems : List Json → List Char
  | [] => []
  | [v] => writeChars v
  | v :: vs => writeChars v ++ ',' :: writeItems vs

/-- The fields of an object with commas between them. -/
def writeFields : List (String × Json) → List Char
  | [] => []
  | [(k, v)] => quote k ++ ':' :: writeChars v
  | (k, v) :: fs => quote k ++ ':' :: (writeChars v ++ ',' :: writeFields fs)

end

/-- The text of a value. -/
def write (v : Json) : String :=
  String.ofList (writeChars v)

/-! ## Values inside other texts -/

/-- A string with single quotes, or with double ones when it holds a single quote only. -/
def quoteInText (s : String) : List Char :=
  let cs := s.toList
  let q := if cs.contains '\'' && !cs.contains '"' then '"' else '\''
  let body := cs.flatMap fun c =>
    if c = q ∨ c = '\\' then ['\\', c]
    else if c = '\n' then ['\\', 'n']
    else if c = '\r' then ['\\', 'r']
    else if c = '\t' then ['\\', 't']
    else if c.toNat < 32 ∨ c.toNat = 127 then
      let hex := Nat.toDigits 16 c.toNat
      '\\' :: 'x' :: (List.replicate (2 - hex.length) '0' ++ hex)
    else [c]
  q :: (body ++ [q])

mutual

/-- The text of a part of a value that stands in a message or a document. -/
def displayPart : Json → List Char
  | .null => "None".toList
  | .bool b => (if b then "True" else "False").toList
  | .int n => (toString n).toList
  | .float x => (floatText x).toList
  | .str s => quoteInText s
  | .arr vs => '[' :: (displayItems vs ++ [']'])
  | .obj fs => '\x7b' :: (displayFields fs ++ ['\x7d'])

/-- The items of a list in a message. -/
def displayItems : List Json → List Char
  | [] => []
  | [v] => displayPart v
  | v :: vs => displayPart v ++ ',' :: ' ' :: displayItems vs

/-- The fields of an object in a message. -/
def displayFields : List (String × Json) → List Char
  | [] => []
  | [(k, v)] => quoteInText k ++ ':' :: ' ' :: displayPart v
  | (k, v) :: fs => quoteInText k ++ ':' :: ' ' :: (displayPart v ++ ',' :: ' ' :: displayFields fs)

end

/-- The text of a value in a message or a document; a string stands for itself. -/
def display : Json → String
  | .str s => s
  | v => String.ofList (displayPart v)

end Lightpath.Json
