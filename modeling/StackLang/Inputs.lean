import StackLang.Fault
import StackLang.Number.Integer

/-!
# Program inputs

The two inputs of a program can be given as one text: two integers with a comma between them and
blanks around each. The integers are not bounded beyond the length of a numeral.

What is set may be no text. It then stands for no integers either, and the fault repeats it.

## Main definitions

* `Inputs.parse`: the two integers of a text
* `Inputs.parseRaw`: the two integers of a raw text
-/

namespace StackLang

namespace Inputs

/-- The two integers of a text. -/
def parse (raw : String) : Except Fault (Int × Int) :=
  match (Text.fields ',' raw.toList).map (Text.trim Text.isBlank) with
  | [first, second] =>
    match Number.readInteger first, Number.readInteger second with
    | .ok a, .ok b => .ok (a, b)
    | _, _ => .error (.configuration ("Program inputs must be integers, got '" ++ raw ++ "'"))
  | _ =>
    .error (.configuration
      ("Expected two comma-separated program inputs, got '" ++ raw ++ "'"))

/-- The two integers of a raw text. -/
def parseRaw (raw : RawText) : Except Fault (Int × Int) :=
  match raw.text? with
  | some text => parse text
  | none =>
    let complaint := if raw.points.count (.char ',') = 1 then "Program inputs must be integers"
      else "Expected two comma-separated program inputs"
    .error (.garbledSetting
      (RawText.ofString (complaint ++ ", got '") ++ raw ++ RawText.ofString "'"))

end Inputs

end StackLang
