/-!
# What is wrong with an input

A form checks an input against the shape that is wanted and lists everything that is wrong with it. Each
entry says where the fault is and which fault it is.
-/

namespace Lightpath.Form

/-- One step from an input to a part of it. -/
inductive Step where
  | field (name : String)
  | position (n : Nat)
  deriving DecidableEq, Repr

/-- The kinds of faults. -/
inductive Fault where
  | missing
  | intType
  | intParsing
  | intFromFloat
  | intParsingSize
  | floatType
  | floatParsing
  | stringType
  | boolType
  | boolParsing
  | choice
  | greaterThanEqual
  | finiteNumber
  /-- a rule of the controller's own is broken -/
  | rule
  /-- not an object where a record is wanted -/
  | recordType
  | listType
  | mapType
  | pairType
  | tooLong
  | jsonInvalid
  /-- the body of a request is not an object -/
  | bodyType
  deriving DecidableEq, Repr

/-- The name of a fault in answers. -/
def Fault.label : Fault → String
  | .missing => "missing"
  | .intType => "int_type"
  | .intParsing => "int_parsing"
  | .intFromFloat => "int_from_float"
  | .intParsingSize => "int_parsing_size"
  | .floatType => "float_type"
  | .floatParsing => "float_parsing"
  | .stringType => "string_type"
  | .boolType => "bool_type"
  | .boolParsing => "bool_parsing"
  | .choice => "enum"
  | .greaterThanEqual => "greater_than_equal"
  | .finiteNumber => "finite_number"
  | .rule => "value_error"
  | .recordType => "model_type"
  | .listType => "list_type"
  | .mapType => "dict_type"
  | .pairType => "tuple_type"
  | .tooLong => "too_long"
  | .jsonInvalid => "json_invalid"
  | .bodyType => "model_attributes_type"

/-- A fault and the way from the input to it. -/
structure Issue where
  path : List Step
  fault : Fault
  deriving DecidableEq, Repr

/-- The issue seen from one step further out. -/
def Issue.under (step : Step) (i : Issue) : Issue :=
  { i with path := step :: i.path }

/-- A fault of the input itself. -/
def Issue.here (f : Fault) : Issue :=
  ⟨[], f⟩

end Lightpath.Form
