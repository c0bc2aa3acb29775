import Lightpath.Form.Scalar

/-!
# Checks of records, lists and maps

A record is an object with the wanted fields; fields that nobody asks for do not count. A field may have a
second name beside the one that it is written with: both are read, the written one first, and issues are
reported under the written one.
-/

namespace Lightpath.Form

/-- The fields of a record. -/
abbrev Fields := List (String × Json)

/-- Checks the fields of an object. -/
def record {α : Type} (check : Fields → Checked α) : Check α
  | .obj fields => check fields
  | _ => .fail .recordType

namespace Fields

variable {α : Type}

/-- The value of a field under its written name or else its second one. -/
def find (fields : Fields) (name second : String) : Option Json :=
  match OrderedMap.get? fields name with
  | some v => some v
  | none => OrderedMap.get? fields second

/-- A field with two names that has to be there. -/
def requiredAs (fields : Fields) (name second : String) (check : Check α) : Checked α :=
  match fields.find name second with
  | some v => (check v).under (.field name)
  | none => Checked.fail .missing |>.under (.field name)

/-- A field that has to be there. -/
def required (fields : Fields) (name : String) (check : Check α) : Checked α :=
  fields.requiredAs name name check

/-- A field with two names that has a value even when it is not there. -/
def orElseAs (fields : Fields) (name second : String) (check : Check α) (value : α) : Checked α :=
  match fields.find name second with
  | some v => (check v).under (.field name)
  | none => .ok value

/-- A field that has a value even when it is not there. -/
def orElse (fields : Fields) (name : String) (check : Check α) (value : α) : Checked α :=
  fields.orElseAs name name check value

end Fields

/-- A value that may be null. -/
def orNull {α : Type} (check : Check α) : Check (Option α)
  | .null => .ok none
  | v => (check v).map some

/-- A list. -/
def list {α : Type} (check : Check α) : Check (List α)
  | .arr vs => .all (vs.zipIdx.map fun (v, i) => (check v).under (.position i))
  | _ => .fail .listType

/-- A map from texts. -/
def mapping {α : Type} (check : Check α) : Check (List (String × α))
  | .obj fields => .all (fields.map fun (k, v) => ((check v).map (k, ·)).under (.field k))
  | _ => .fail .mapType

/-- A list of two values. -/
def pair {α : Type} (check : Check α) : Check (α × α)
  | .arr vs =>
    let part (i : Nat) : Checked α :=
      match vs[i]? with
      | some v => (check v).under (.position i)
      | none => Checked.fail .missing |>.under (.position i)
    if 2 < vs.length then .fail .tooLong
    else Prod.mk <$> part 0 <*> part 1
  | _ => .fail .pairType

/-! ## Outcomes -/

/-- The outcome of a check: its value, or all its issues as one failure. -/
def Checked.outcome {α : Type} : Checked α → Outcome α
  | .ok a => .ok a
  | .bad is => .error (.invalid is)

end Lightpath.Form
