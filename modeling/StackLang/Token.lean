import StackLang.Fault
import StackLang.Instr
import StackLang.Number.Integer

/-!
# Tokens

A token is a word of the vocabulary or a literal. Literals are non-empty rows of the digits `0` to
`9`: no sign, no other script, nothing in between. Their value is not bounded, but a literal with
too many digits is not read.

## Main definitions

* `Token.vocabulary`: the words and the instructions they stand for
* `Token.isLiteral`: the literals
* `Token.classify`: the instruction of a token
-/

namespace StackLang

namespace Token

/-- The words of the language, in the order in which they are listed for readers. -/
def vocabulary : List (String × Instr) :=
  [("p1", .load .p1), ("p2", .load .p2), ("add", .arith .add), ("sub", .arith .sub),
    ("mul", .arith .mul), ("div", .arith .div), ("rem", .arith .rem), ("cpow", .call "pow")]

/-- Whether a token is a non-empty row of the digits `0` to `9`. -/
def isLiteral (token : String) : Bool :=
  token.toList ≠ [] && token.toList.all Char.isDigit

/-- The value of a literal. -/
def literalValue (token : String) : Nat :=
  Number.ofDigits (token.toList.map Number.asciiDigit)

/-- The instruction that a literal stands for. -/
def literal (token : String) : Except Fault Instr :=
  let digits := token.toList.length
  if digits > Number.maxDigits then .error (.numeralTooLong digits)
  else .ok (.push (literalValue token : Int))

/-- The instruction that the token at `index` stands for. -/
def classify (token : String) (index : Int) : Except Fault Instr :=
  match vocabulary.lookup token with
  | some instr => .ok instr
  | none => if isLiteral token then literal token else .error (.invalidToken index token)

end Token

end StackLang
