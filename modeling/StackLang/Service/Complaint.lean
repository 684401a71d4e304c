import StackLang.Json.Basic

/-!
# Complaints about a body

What is wrong with a body, as causes with the place and the value they are about. The place is a
path of names and numbers into the body.

## Main definitions

* `Service.Cause`: what can be wrong
* `Service.Complaint`: a cause with its place and the value that was given
* `Service.Complaint.json`: the complaint as it is sent
-/

namespace StackLang

namespace Service

/-- One step of a place. -/
inductive Step
  | name (text : String)
  | index (number : Nat)
  deriving DecidableEq, Repr

/-- The greatest input. -/
def maxInput : Int := 4294967295

/-- The least input. -/
def minInput : Int := -2147483648

/-- What can be wrong with a value. -/
inductive Cause
  | missing
  | notObject
  | invalidJson (text : String)
  | notList
  | notString
  | tooLong (length : Nat)
  | tooShort (length : Nat)
  | fraction
  | notNumeral
  | tooLarge
  | notFinite
  | notInteger
  | aboveMax
  | belowMin
  deriving DecidableEq, Repr

namespace Cause

/-- The short name of a cause. -/
def kind : Cause → String
  | .missing => "missing"
  | .notObject => "model_attributes_type"
  | .invalidJson _ => "json_invalid"
  | .notList => "list_type"
  | .notString => "string_type"
  | .tooLong _ => "too_long"
  | .tooShort _ => "too_short"
  | .fraction => "int_from_float"
  | .notNumeral => "int_parsing"
  | .tooLarge => "int_parsing_size"
  | .notFinite => "finite_number"
  | .notInteger => "int_type"
  | .aboveMax => "less_than_equal"
  | .belowMin => "greater_than_equal"

/-- The text of a cause. -/
def message : Cause → String
  | .missing => "Field required"
  | .notObject => "Input should be a valid dictionary or object to extract fields from"
  | .invalidJson _ => "JSON decode error"
  | .notList => "Input should be a valid list"
  | .notString => "Input should be a valid string"
  | .tooLong n => "List should have at most 2 items after validation, not " ++ Number.nat n
  | .tooShort n => "List should have at least 2 items after validation, not " ++ Number.nat n
  | .fraction => "Input should be a valid integer, got a number with a fractional part"
  | .notNumeral => "Input should be a valid integer, unable to parse string as an integer"
  | .tooLarge => "Unable to parse input string as an integer, exceeded maximum size"
  | .notFinite => "Input should be a finite number"
  | .notInteger => "Input should be a valid integer"
  | .aboveMax => "Input should be less than or equal to " ++ Number.int maxInput
  | .belowMin => "Input should be greater than or equal to " ++ Number.int minInput

/-- The data of a cause, if it has some. -/
def context? : Cause → Option Json
  | .invalidJson text => some (.obj [("error", .str text)])
  | .tooLong n =>
    some (.obj [("field_type", .str "List"), ("max_length", .int 2), ("actual_length", .int n)])
  | .tooShort n =>
    some (.obj [("field_type", .str "List"), ("min_length", .int 2), ("actual_length", .int n)])
  | .aboveMax => some (.obj [("le", .int maxInput)])
  | .belowMin => some (.obj [("ge", .int minInput)])
  | _ => none

end Cause

/-- A cause with its place and the value that was given. -/
structure Complaint where
  place : List Step
  cause : Cause
  input : Json

/-- A step as it is sent. -/
def Step.json : Step → Json
  | .name text => .str text
  | .index n => .int n

/-- A complaint as it is sent. -/
def Complaint.json (c : Complaint) : Json :=
  let context : List (RawText × Json) :=
    match c.cause.context? with
    | some data => [("ctx", data)]
    | none => []
  .obj (("type", .str c.cause.kind) :: ("loc", .arr (c.place.map Step.json))
    :: ("msg", .str c.cause.message) :: ("input", c.input) :: context)

end Service

end StackLang
