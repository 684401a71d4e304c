import StackLang.Number.Numeral
import StackLang.Word

/-!
# Instructions

What a token means to the stack: load an input, push a constant, or replace the two topmost
values by one, either with an arithmetic operation or with a library function. Each instruction
has a fixed effect on the depth of the stack and one line of module text.

Constants may be any integer. Their text is that of the remainder modulo `2 ^ 32`, so constants
that are equal as words have equal texts.

## Main definitions

* `Instr`: the instructions, with `Instr.pops` and `Instr.pushes`
* `Instr.text`: the line of module text
-/

namespace StackLang

/-- The two inputs of a program. -/
inductive Param
  | p1
  | p2
  deriving DecidableEq, Repr

/-- The arithmetic operations. Division and remainder are unsigned. -/
inductive Arith
  | add
  | sub
  | mul
  | div
  | rem
  deriving DecidableEq, Repr

/-- One instruction. -/
inductive Instr
  /-- Push an input. -/
  | load (param : Param)
  /-- Push a constant. -/
  | push (value : Int)
  /-- Replace the two topmost values by the result of an operation. -/
  | arith (op : Arith)
  /-- Replace the two topmost values by the result of a library function. -/
  | call (name : String)
  deriving DecidableEq, Repr

/-- The name of an input, also its token. -/
def Param.name : Param → String
  | .p1 => "p1"
  | .p2 => "p2"

/-- The operation as it is called in module text. -/
def Arith.mnemonic : Arith → String
  | .add => "i32.add"
  | .sub => "i32.sub"
  | .mul => "i32.mul"
  | .div => "i32.div_u"
  | .rem => "i32.rem_u"

namespace Instr

/-- How many values the instruction takes from the stack. -/
def pops : Instr → Nat
  | .load _ => 0
  | .push _ => 0
  | .arith _ => 2
  | .call _ => 2

/-- How many values the instruction puts on the stack. -/
def pushes : Instr → Nat
  | _ => 1

/-- The library function that the instruction calls. -/
def callee? : Instr → Option String
  | .call name => some name
  | _ => none

/-- The line of module text, without indentation. -/
def text : Instr → String
  | .load p => "local.get $" ++ p.name
  | .push n => "i32.const " ++ Number.nat (Word.residue n)
  | .arith op => op.mnemonic
  | .call name => "call $" ++ name

/-- An instruction either pushes one value or replaces two by one. -/
theorem pops_eq (i : Instr) : i.pops = 0 ∨ i.pops = 2 := by
  cases i <;> simp [pops]

end Instr

end StackLang
