import Lightpath.Json.Basic
import Lightpath.Failure
import Lightpath.Numeral.Reading

/-!
# Looking into a JSON value of unknown shape

A reply may have any shape. Each way of looking into it says for every kind of value what is found there or
why nothing is.
-/

namespace Lightpath.Json

open Lightpath.Numeral

/-! ## Numbers -/

/-- The whole number that a value stands for: a fraction is cut off and a text is read. -/
def toWhole : Json → Outcome Int
  | .int n => .ok n
  | .bool b => .ok (if b then 1 else 0)
  | .float x =>
    match parts x with
    | .notANumber => .error .unreadable
    | .infinite _ => .error .outOfRange
    | .finite n m e => .ok ((Parts.finite n m e).whole?.getD 0)
  | .str s =>
    match wholeOf s with
    | some n => .ok n
    | none => .error .unreadable
  | _ => .error .wrongKind

/-- The floating-point number nearest to a whole number, refused beyond the largest one. -/
def floatOfInt (n : Int) : Outcome Float :=
  let x := nearestWhole n
  if (parts x).isFinite then .ok x else .error .outOfRange

/-- The floating-point number that a value stands for; a text is read. -/
def toFloat : Json → Outcome Float
  | .int n => floatOfInt n
  | .bool b => .ok (if b then 1.0 else 0.0)
  | .float x => .ok x
  | .str s =>
    match floatOf s with
    | some x => .ok x
    | none => .error .unreadable
  | _ => .error .wrongKind

/-! ## Parts -/

/-- The value of a field that has to be there. -/
def item (v : Json) (name : String) : Outcome Json :=
  match v with
  | .obj fields =>
    match OrderedMap.get? fields name with
    | some w => .ok w
    | none => .error .missingKey
  | _ => .error .wrongKind

/-- The first item of a list or the first character of a text. -/
def first : Json → Outcome Json
  | .arr (v :: _) => .ok v
  | .arr [] => .error .missingPosition
  | .str s =>
    match s.toList with
    | c :: _ => .ok (.str (String.singleton c))
    | [] => .error .missingPosition
  | .obj _ => .error .missingKey
  | _ => .error .wrongKind

/-- The value of a field of an object, null when the field is not there. -/
def lookup (v : Json) (name : String) : Outcome Json :=
  match v with
  | .obj fields => .ok ((OrderedMap.get? fields name).getD .null)
  | _ => .error .missingOperation

/-- What a loop over the value goes through: items, the names of fields, or characters. -/
def elements : Json → Outcome (List Json)
  | .arr vs => .ok vs
  | .obj fields => .ok (fields.map fun f => .str f.1)
  | .str s => .ok (s.toList.map fun c => .str (String.singleton c))
  | _ => .error .wrongKind

/-- What a loop over the positions of the value, the last one left out, can reach. The positions of an
object have no values, and so few of them that the loop does nothing are no fault. -/
def positions : Json → Outcome (List Json)
  | .arr vs => .ok vs
  | .str s => .ok (s.toList.map fun c => .str (String.singleton c))
  | .obj (_ :: _ :: _) => .error .missingKey
  | .obj _ => .ok []
  | _ => .error .wrongKind

/-- Whether a text occurs in another. -/
def occursIn (part : List Char) : List Char → Bool
  | [] => part.isEmpty
  | c :: rest => part.isPrefixOf (c :: rest) || occursIn part rest

/-- Whether the value holds a text: as the name of a field, as an item or as a part of a text. -/
def holds (v : Json) (s : String) : Outcome Bool :=
  match v with
  | .obj fields => .ok (OrderedMap.has fields s)
  | .arr vs => .ok (vs.any (·.isText s))
  | .str t => .ok (occursIn s.toList t.toList)
  | _ => .error .wrongKind

end Lightpath.Json
