import StackLang.Token

/-!
# Expressions

What programs mean, apart from stacks and modules: a binary tree over the two inputs and literals.
A program lists the nodes of its tree from left to right, each after its operands.

The value of a tree is a word, or nothing when a division or a remainder by zero is met on the way
or the library function gives nothing. The library function is a parameter, so that a tree has a
meaning for every library; `Expr.power` is the function that the library of the language computes.

## Main definitions

* `Expr`: the trees
* `Expr.tokens`: the nodes as a program lists them
* `Expr.value?`: the value of a tree
* `Expr.power`: powers of words
-/

namespace StackLang

/-- A literal that is not too long to be read. -/
structure Literal where
  text : String
  isLiteral : Token.isLiteral text = true
  isShort : text.toList.length ≤ Number.maxDigits
  deriving DecidableEq

/-- What stands at an inner node. -/
inductive Operator
  | arith (op : Arith)
  | power
  deriving DecidableEq, Repr

/-- A tree over inputs and literals. -/
inductive Expr
  | param (p : Param)
  | literal (l : Literal)
  | node (op : Operator) (left right : Expr)
  deriving DecidableEq

/-- The word of the language for an operation. -/
def Arith.word : Arith → String
  | .add => "add"
  | .sub => "sub"
  | .mul => "mul"
  | .div => "div"
  | .rem => "rem"

/-- The word of the language for an operator. -/
def Operator.word : Operator → String
  | .arith op => op.word
  | .power => "cpow"

/-- The value of an operation, unless it divides by zero. -/
def Arith.value? : Arith → Word → Word → Option Word
  | .add, x, y => some (x + y)
  | .sub, x, y => some (x - y)
  | .mul, x, y => some (x * y)
  | .div, x, y => if y = 0 then none else some (x.udiv y)
  | .rem, x, y => if y = 0 then none else some (x.umod y)

namespace Expr

/-- The nodes of a tree, each after its operands. -/
def tokens : Expr → List String
  | .param p => [p.name]
  | .literal l => [l.text]
  | .node op left right => left.tokens ++ right.tokens ++ [op.word]

/-- A base to the power of an exponent that is read as unsigned. -/
def power (base exponent : Word) : Option Word :=
  some (BitVec.ofNat 32 (Nat.pow base.toNat exponent.toNat))

/-- The value of an operator, with `library` for powers. -/
def applyOperator (library : Word → Word → Option Word) : Operator → Word → Word → Option Word
  | .arith op => op.value?
  | .power => library

/-- The value of a tree on two inputs. The left operand comes first. -/
def value? (library : Word → Word → Option Word) (p1 p2 : Word) : Expr → Option Word
  | .param .p1 => some p1
  | .param .p2 => some p2
  | .literal l => some (BitVec.ofNat 32 (Token.literalValue l.text))
  | .node op left right => do
    let x ← left.value? library p1 p2
    let y ← right.value? library p1 p2
    applyOperator library op x y

end Expr

end StackLang
