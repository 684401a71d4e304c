import StackLang.Json.Encoding
import StackLang.Json.Reader
import StackLang.Service.Complaint
import StackLang.Service.Numeral
import StackLang.Service.Request

/-!
# Checking bodies

A body is checked field by field, and all complaints are gathered, in the order of the fields.
Inputs are taken from whole numbers, truth values, floating-point numbers without a fraction and
numerals, and have to fit into 32 bits, signed or unsigned.

## Main definitions

* `Service.Checked`: a value, or complaints
* `Service.readDocument`, `Service.readBody`: the document in a body
* `Service.checkTokens`, `Service.checkInputs`: the fields
* `Service.RunRequest`, `Service.checkRun`: a whole request to run a program
-/

namespace StackLang

namespace Service

/-- A value, or what is wrong. -/
abbrev Checked := Except (List Complaint)

/-- One complaint. -/
def complain {α : Type} (place : List Step) (cause : Cause) (input : Json) : Checked α :=
  .error [⟨place, cause, input⟩]

/-- Two checks at once: all complaints of both. -/
def both {α β : Type} (a : Checked α) (b : Checked β) : Checked (α × β) :=
  match a, b with
  | .ok x, .ok y => .ok (x, y)
  | .ok _, .error es => .error es
  | .error es, .ok _ => .error es
  | .error es, .error fs => .error (es ++ fs)

/-- Check all items of a list, counted from `index`. -/
def checkItems {α : Type} (check : Nat → Json → Checked α) (index : Nat) :
    List Json → Checked (List α)
  | [] => .ok []
  | v :: vs =>
    match both (check index v) (checkItems check (index + 1) vs) with
    | .ok (x, xs) => .ok (x :: xs)
    | .error es => .error es

/-! ## The document -/

/-- Why there is no document to check. -/
inductive BodyError
  | complaint (complaint : Complaint)
  /-- The document cannot be read for a reason that is not its form. -/
  | unreadable

/-- The place of the whole body. -/
def bodyPlace : List Step := [.name "body"]

/-- The document that code points write. -/
def readDocument (ps : List Point) : Except BodyError Json :=
  match Json.read ps with
  | .ok v => .ok v
  | .error e =>
    match e.cause.text? with
    | some cause =>
      .error (.complaint ⟨bodyPlace ++ [.index e.offset], .invalidJson cause, .obj []⟩)
    | none => .error .unreadable

/-- The document in a body. -/
def readBody (r : Request) : Except BodyError Json :=
  match r.body with
  | none => .error (.complaint ⟨bodyPlace, .missing, .null⟩)
  | some text =>
    if text = "" then .error (.complaint ⟨bodyPlace, .missing, .null⟩)
    else if !(r.contentType.any isJsonType) then .ok (.str text)
    else match Json.decodeDocument? (Text.encode text) with
      | none => .error .unreadable
      | some ps => readDocument ps

/-- A body that has fields. -/
def checkObject (v : Json) : Checked Json :=
  match v with
  | .obj _ => .ok v
  | _ => complain bodyPlace .notObject v

/-! ## Tokens -/

/-- The place of a field. -/
def fieldPlace (name : String) : List Step := bodyPlace ++ [.name name]

/-- A token. -/
def checkToken (index : Nat) (v : Json) : Checked RawText :=
  match v with
  | .str s => .ok s
  | _ => complain (fieldPlace "tokens" ++ [.index index]) .notString v

/-- The tokens of a body. -/
def checkTokens (body : Json) : Checked (List RawText) :=
  match body.field? "tokens" with
  | none => complain (fieldPlace "tokens") .missing body
  | some (.arr items) => checkItems checkToken 0 items
  | some v => complain (fieldPlace "tokens") .notList v

/-! ## Inputs -/

/-- The integer that a text stands for. -/
def numeralValue (text : String) : Except Cause Int :=
  if isOverlong text.toList then .error .tooLarge
  else match numeral? text.toList with
    | some n => .ok n
    | none => .error .notNumeral

/-- The integer that a floating-point number is. Only those of less than 64 bits are taken. -/
def floatValue (x : Binary64) : Except Cause Int :=
  if !x.isFinite then .error .notFinite
  else match x.toInt? with
    | none => .error .fraction
    | some n => if n.natAbs < Number.twoPow 63 then .ok n else .error .tooLarge

/-- The integer that a value stands for. -/
def integerValue : Json → Except Cause Int
  | .int n => .ok n
  | .bool b => .ok (if b then 1 else 0)
  | .float x => floatValue x
  | .str s => s.text?.elim (.error .notNumeral) numeralValue
  | _ => .error .notInteger

/-- An integer that fits into 32 bits. -/
def inRange (n : Int) : Except Cause Int :=
  if n > maxInput then .error .aboveMax
  else if n < minInput then .error .belowMin
  else .ok n

/-- An input. -/
def checkInput (index : Nat) (v : Json) : Checked Int :=
  match integerValue v >>= inRange with
  | .ok n => .ok n
  | .error cause => complain (fieldPlace "inputs" ++ [.index index]) cause v

/-- The two inputs of a list. Too many are not looked at, and too few are only told about when
nothing else is wrong. -/
def checkPair (items : List Json) : Checked (Int × Int) :=
  if items.length > 2 then
    complain (fieldPlace "inputs") (.tooLong items.length) (.arr items)
  else match checkItems checkInput 0 items with
    | .error es => .error es
    | .ok [a, b] => .ok (a, b)
    | .ok ns => complain (fieldPlace "inputs") (.tooShort ns.length) (.arr items)

/-- The inputs of a body, if it has any. -/
def checkInputs (body : Json) : Checked (Option (Int × Int)) :=
  match body.field? "inputs" with
  | none => .ok none
  | some .null => .ok none
  | some (.arr items) =>
    match checkPair items with
    | .ok pair => .ok (some pair)
    | .error es => .error es
  | some v => complain (fieldPlace "inputs") .notList v

/-! ## Whole requests -/

/-- A request to run a program. -/
structure RunRequest where
  tokens : List RawText
  inputs : Option (Int × Int)
  deriving DecidableEq, Repr

/-- Check a body for a request to compile. -/
def checkCompile (v : Json) : Checked (List RawText) := do checkTokens (← checkObject v)

/-- Check a body for a request to run. -/
def checkRun (v : Json) : Checked RunRequest := do
  let body ← checkObject v
  match both (checkTokens body) (checkInputs body) with
  | .ok (tokens, inputs) => return ⟨tokens, inputs⟩
  | .error es => throw es

end Service

end StackLang
