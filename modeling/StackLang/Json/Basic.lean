import StackLang.Number.Decimal
import StackLang.Text.Raw

/-!
# JSON values

Documents of the service. Whole numbers and floating-point numbers are kept apart, because a
document that was sent with `1.0` is answered with `1.0`. Strings are raw texts, since a document
can name half of a surrogate pair.

## Main definitions

* `Json`: the values
* `Json.field?`: a field of an object
* `Json.isWritable`: whether all numbers in a value can be written
* `Json.isSendable`: whether all strings in a value are texts
-/

namespace StackLang

/-- A JSON value. -/
inductive Json
  | null
  | bool (value : Bool)
  | int (value : Int)
  | float (value : Binary64)
  | str (text : RawText)
  | arr (items : List Json)
  | obj (fields : List (RawText × Json))
  deriving Inhabited

namespace Json

/-- The field of an object by name. -/
def field? (name : String) : Json → Option Json
  | .obj fields => fields.lookup (RawText.ofString name)
  | _ => none

/-- A list of texts. -/
def strs (texts : List String) : Json := .arr (texts.map fun s => .str (.ofString s))

/-- A list of integers. -/
def ints (values : List Int) : Json := .arr (values.map .int)

/-- Fields with one more, which takes the place of an earlier one of the same name. -/
def setField (name : RawText) (value : Json) : List (RawText × Json) → List (RawText × Json)
  | [] => [(name, value)]
  | (n, v) :: fields =>
    if n = name then (n, value) :: fields else (n, v) :: setField name value fields

/-! ## What can be sent -/

mutual

/-- Whether the property holds of all numbers and strings in a value. -/
def all (number : Binary64 → Bool) (string : RawText → Bool) : Json → Bool
  | .float x => number x
  | .str s => string s
  | .arr items => allItems number string items
  | .obj fields => allFields number string fields
  | _ => true

/-- Whether the property holds in all values of a list. -/
def allItems (number : Binary64 → Bool) (string : RawText → Bool) : List Json → Bool
  | [] => true
  | v :: vs => v.all number string && allItems number string vs

/-- Whether the property holds in all fields. -/
def allFields (number : Binary64 → Bool) (string : RawText → Bool) :
    List (RawText × Json) → Bool
  | [] => true
  | (n, v) :: fs => string n && v.all number string && allFields number string fs

end

/-- Whether the value holds no infinite number and no number that is none. -/
def isWritable (v : Json) : Bool := v.all Binary64.isFinite fun _ => true

/-- Whether the value holds no half of a surrogate pair. -/
def isSendable (v : Json) : Bool := v.all (fun _ => true) fun s => s.text?.isSome

end Json

end StackLang
