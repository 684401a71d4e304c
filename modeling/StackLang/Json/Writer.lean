import StackLang.Json.Basic

/-!
# Writing JSON

One line of text for a value. Only quotation marks, backslashes, control characters and halves of
surrogate pairs are escaped; all other characters stand for themselves.

## Main definitions

* `Json.escapePoint`: one code point of a string
* `Json.text`: the text of a value
-/

namespace StackLang

namespace Json

/-- One code point between quotation marks. -/
def escapePoint : Point → List Char
  | .char c =>
    if c = '"' || c = '\\' then ['\\', c]
    else if c.toNat < 0x20 then '\\' :: 'u' :: (Number.hex 4 c.toNat).toList
    else [c]
  | p => p.escaped

/-- A string with its quotation marks. -/
def stringText (s : RawText) : String :=
  String.ofList ('"' :: s.points.flatMap escapePoint ++ ['"'])

mutual

/-- The text of a value. -/
def text : Json → String
  | .null => "null"
  | .bool b => if b then "true" else "false"
  | .int n => Number.int n
  | .float x => x.text
  | .str s => stringText s
  | .arr items => "[" ++ ",".intercalate (itemTexts items) ++ "]"
  | .obj fields => "\x7b" ++ ",".intercalate (fieldTexts fields) ++ "\x7d"

/-- The texts of the items of a list. -/
def itemTexts : List Json → List String
  | [] => []
  | v :: vs => v.text :: itemTexts vs

/-- The texts of the fields of an object. -/
def fieldTexts : List (RawText × Json) → List String
  | [] => []
  | (n, v) :: fs => (stringText n ++ ":" ++ v.text) :: fieldTexts fs

end

end Json

end StackLang
