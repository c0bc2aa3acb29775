import Lightpath.OrderedMap
import Lightpath.Numeral.Binary64

/-!
# JSON values

Requests, settings and the replies of the path computation engine are JSON values. Whole numbers and
floating-point numbers are told apart, and the fields of an object keep their order.
-/

namespace Lightpath

/-- A JSON value. -/
inductive Json where
  | null
  | bool (b : Bool)
  | int (n : Int)
  | float (x : Float)
  | str (s : String)
  | arr (items : List Json)
  | obj (fields : List (String × Json))
  deriving Repr, Inhabited

namespace Json

/-! ## Parts -/

/-- The value of a field, for an object that has it. -/
def field? (v : Json) (name : String) : Option Json :=
  match v with
  | .obj fields => OrderedMap.get? fields name
  | _ => none

/-- A string as a value, or null. -/
def ofOption (s : Option String) : Json :=
  match s with
  | some s => .str s
  | none => .null

/-- A number as a value, or null. -/
def ofFloat? (x : Option Float) : Json :=
  match x with
  | some x => .float x
  | none => .null

/-- Whether a value counts as yes: not null, false, zero or empty. -/
def truthy : Json → Bool
  | .null => false
  | .bool b => b
  | .int n => n != 0
  | .float x => !(x == 0)
  | .str s => s != ""
  | .arr items => !items.isEmpty
  | .obj fields => !fields.isEmpty

/-- Whether a value equals a whole number; true and false count as one and zero. -/
def equalsInt (v : Json) (n : Int) : Bool :=
  match v with
  | .int m => m == n
  | .bool b => (if b then 1 else 0) == n
  | .float x =>
    match Numeral.parts x with
    | p@(.finite ..) => p.isWhole && p.whole? == some n
    | _ => false
  | _ => false

/-- Whether a value is the given text. -/
def isText (v : Json) (s : String) : Bool :=
  match v with
  | .str t => t == s
  | _ => false

end Json

end Lightpath
