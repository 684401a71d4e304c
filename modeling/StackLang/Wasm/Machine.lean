import StackLang.Wasm.Basic

/-!
# Running WebAssembly

A stack machine for the operations. Running is a function of the operations and the state, in the
order in which they stand; only a jump back to the start of a loop goes around, and a budget bounds
how often. Running out of the budget is an outcome of its own, apart from traps, and apart from
code that takes values which are not there.

A function is called with its arguments and knows nothing of the stack below them.

## Main definitions

* `Wasm.Trap`, `Wasm.Result`: how a call can end
* `Wasm.exec`, `Wasm.execAll`: one operation, and a list of them
* `Wasm.Func.run`: a function applied to arguments
-/

namespace StackLang

namespace Wasm

/-- Why a call traps. -/
inductive TrapCause
  | divideByZero
  | unreachable
  deriving DecidableEq, Repr

/-- A function that was running when a trap occurred. -/
structure TrapFrame where
  index : Nat
  name : Option String
  deriving DecidableEq, Repr

/-- A trap with the functions that were running, the innermost one first. -/
structure Trap where
  cause : TrapCause
  frames : List TrapFrame
  deriving DecidableEq, Repr

/-- How a call ends. -/
inductive Result
  | values (words : List Word)
  | trap (trap : Trap)
  /-- Values were missing or left over: the code is not well-formed. -/
  | stuck
  /-- The budget is used up. -/
  | endless
  deriving DecidableEq, Repr

/-- A function as its callers see it. -/
structure Callee where
  signature : Signature
  run : List Word → Result

/-- The operand stack, its top first, and the local variables. -/
structure State where
  stack : List Word
  locals : List Word
  deriving DecidableEq, Repr

/-- How an operation ends. -/
inductive Outcome
  | next (state : State)
  /-- A jump to the block that lies `label` blocks further out. -/
  | jump (label : Nat) (state : State)
  | trap (trap : Trap)
  | stuck
  | endless
  deriving DecidableEq, Repr

/-- An operation on two words. -/
def WordOp.apply : WordOp → Word → Word → Except TrapCause Word
  | .add, x, y => .ok (x + y)
  | .sub, x, y => .ok (x - y)
  | .mul, x, y => .ok (x * y)
  | .divU, x, y => if y = 0 then .error .divideByZero else .ok (x.udiv y)
  | .remU, x, y => if y = 0 then .error .divideByZero else .ok (x.umod y)
  | .and, x, y => .ok (x &&& y)
  | .shrU, x, y => .ok (x >>> (y.toNat % 32))

/-- Leave a block that was entered in `entry`: what lies on the stack below it is as before. -/
def leave (entry : State) : Outcome → Outcome
  | .jump 0 s => .next { s with stack := entry.stack }
  | .jump (k + 1) s => .jump k s
  | o => o

/-- Run the body of a loop, again and again as long as it jumps back, `laps` times at most. -/
def iterate (body : State → Outcome) : (laps : Nat) → State → Outcome
  | 0, _ => .endless
  | laps + 1, s =>
    match body s with
    | .jump 0 t => iterate body laps { t with stack := s.stack }
    | .jump (k + 1) t => .jump k t
    | o => o

/-- Call a function with the values on top of the stack. -/
def callWith (callee : Callee) (s : State) : Outcome :=
  let n := callee.signature.params
  if s.stack.length < n then .stuck
  else match callee.run (s.stack.take n).reverse with
    | .values ws => .next { s with stack := ws.reverse ++ s.stack.drop n }
    | .trap t => .trap t
    | .stuck => .stuck
    | .endless => .endless

mutual

/-- One operation, with the functions that `callee?` numbers. -/
def exec (callee? : Nat → Option Callee) (laps : Nat) : Op → State → Outcome
  | .unreachable, _ => .trap ⟨.unreachable, []⟩
  | .localGet i, s =>
    match s.locals[i]? with
    | some w => .next { s with stack := w :: s.stack }
    | none => .stuck
  | .localSet i, s =>
    match s.stack with
    | w :: ws => if i < s.locals.length then .next ⟨ws, s.locals.set i w⟩ else .stuck
    | [] => .stuck
  | .const w, s => .next { s with stack := w :: s.stack }
  | .eqz, s =>
    match s.stack with
    | w :: ws => .next { s with stack := (if w = 0 then 1 else 0) :: ws }
    | [] => .stuck
  | .word op, s =>
    match s.stack with
    | y :: x :: ws =>
      match op.apply x y with
      | .ok w => .next { s with stack := w :: ws }
      | .error cause => .trap ⟨cause, []⟩
    | _ => .stuck
  | .call f, s =>
    match callee? f with
    | some callee => callWith callee s
    | none => .stuck
  | .block body, s => leave s (execAll callee? laps body s)
  | .loop body, s => iterate (fun t => execAll callee? laps body t) laps s
  | .cond onTrue onFalse, s =>
    match s.stack with
    | w :: ws =>
      let t : State := { s with stack := ws }
      if w = 0 then leave t (execAll callee? laps onFalse t)
      else leave t (execAll callee? laps onTrue t)
    | [] => .stuck
  | .br label, s => .jump label s
  | .brIf label, s =>
    match s.stack with
    | w :: ws => if w = 0 then .next { s with stack := ws } else .jump label { s with stack := ws }
    | [] => .stuck

/-- Operations in their order. -/
def execAll (callee? : Nat → Option Callee) (laps : Nat) : List Op → State → Outcome
  | [], s => .next s
  | op :: ops, s =>
    match exec callee? laps op s with
    | .next t => execAll callee? laps ops t
    | o => o

end

/-- A trap inside the function that is number `index`. -/
def Trap.within (t : Trap) (index : Nat) (f : Func) : Trap :=
  { t with frames := t.frames ++ [⟨index, f.name⟩] }

/-- Apply the function that is number `index` of its module. The other local variables start at
zero, and exactly the results must be left. -/
def Func.run (f : Func) (callee? : Nat → Option Callee) (laps index : Nat) (args : List Word) :
    Result :=
  let locals := args ++ List.replicate f.locals 0
  match execAll callee? laps f.body ⟨[], locals⟩ with
  | .next s => if s.stack.length = f.signature.results then .values s.stack.reverse else .stuck
  | .jump 0 s =>
    if f.signature.results ≤ s.stack.length then
      .values (s.stack.take f.signature.results).reverse
    else .stuck
  | .jump (_ + 1) _ => .stuck
  | .trap t => .trap (t.within index f)
  | .stuck => .stuck
  | .endless => .endless

end Wasm

end StackLang
