import StackLang.Instr

/-!
# WebAssembly modules

The part of WebAssembly that programs of the language and their library use: functions over 32-bit
words with local variables, blocks, loops, conditions and jumps, and modules that import, export
and start functions. Local variables, functions and labels are given by number; a label counts the
blocks between a jump and its target.

## Main definitions

* `Wasm.Op`: the operations
* `Wasm.Func`, `Wasm.Module`: functions and modules
* `Wasm.ofInstr`: an instruction of the language as an operation
-/

namespace StackLang

namespace Wasm

/-- The operations on two words. -/
inductive WordOp
  | add
  | sub
  | mul
  | divU
  | remU
  | and
  | shrU
  deriving DecidableEq, Repr

/-- The operations. Blocks, loops and conditions neither take nor leave values. -/
inductive Op
  | unreachable
  | localGet (index : Nat)
  | localSet (index : Nat)
  | const (value : Word)
  | eqz
  | word (op : WordOp)
  | call (func : Nat)
  | block (body : List Op)
  | loop (body : List Op)
  | cond (onTrue onFalse : List Op)
  | br (label : Nat)
  | brIf (label : Nat)
  deriving Repr

/-- How many words a function takes and gives. -/
structure Signature where
  params : Nat
  results : Nat
  deriving DecidableEq, Repr

/-- Parameters or results in a text: nothing at all, or the types after a word. -/
def Signature.part (word : String) (count : Nat) : String :=
  if count = 0 then ""
  else " (" ++ word ++ String.join (List.replicate count " i32") ++ ")"

/-- The text of a function type. -/
def Signature.text (s : Signature) : String :=
  "(func" ++ part "param" s.params ++ part "result" s.results ++ ")"

/-- A function of a module. -/
structure Func where
  name : Option String
  signature : Signature
  locals : Nat
  body : List Op
  deriving Repr

/-- A function that a module asks for. -/
structure Import where
  source : String
  name : String
  signature : Signature
  deriving DecidableEq, Repr

/-- A module. The imported functions are counted first, then its own. -/
structure Module where
  imports : List Import
  funcs : List Func
  exports : List (String × Nat)
  start : Option Nat
  deriving Repr

/-- The module without anything in it. -/
def Module.empty : Module := ⟨[], [], [], none⟩

/-- The number of the local variable that holds an input. -/
def paramIndex : Param → Nat
  | .p1 => 0
  | .p2 => 1

/-- The operation on two words that an arithmetic instruction is. -/
def wordOp : Arith → WordOp
  | .add => .add
  | .sub => .sub
  | .mul => .mul
  | .div => .divU
  | .rem => .remU

/-- An instruction of the language, with the functions that `funcIndex` numbers. -/
def ofInstr (funcIndex : String → Nat) : Instr → Op
  | .load p => .localGet (paramIndex p)
  | .push n => .const (Word.ofInteger n)
  | .arith op => .word (wordOp op)
  | .call name => .call (funcIndex name)

end Wasm

end StackLang
