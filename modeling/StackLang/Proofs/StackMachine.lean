import StackLang.Proofs.Postfix
import StackLang.Wasm.Machine

/-!
# Running the instructions of a tree

The instructions of a tree, run on an operand stack, push the value of the tree or trap where its
evaluation does. What lies on the stack below is neither looked at nor changed, so the statement
is about any stack and any code that follows; the statement about a whole program is the case of an
empty stack and no code.

The power function is a parameter here: any function of two words that gives a word or traps. Code
that does not call it needs no function at all, which is why the lemmas ask for one only if it is
called.

## Main definitions

* `Expr.Traps` — where the evaluation of a tree gives nothing
* `Expr.outcome` — the value of a tree, or the trap it runs into first
* `Wasm.Callee.Computes` — a callable function that is a given function of two words

## Main results

* `Wasm.execAll_instrs` — one tree, above any stack and before any code
* `Wasm.execProgram_of_compile` — a compiled program from an empty stack
-/

namespace StackLang

/-! ## Trees that trap -/

namespace Expr

/-- The evaluation of the tree divides by zero somewhere, or asks the library for a value it does
not give. -/
inductive Traps (library : Word → Word → Option Word) (p1 p2 : Word) : Expr → Prop
  | left {op : Operator} {left right : Expr} (h : Traps library p1 p2 left) :
      Traps library p1 p2 (.node op left right)
  | right {op : Operator} {left right : Expr} (h : Traps library p1 p2 right) :
      Traps library p1 p2 (.node op left right)
  | divisor {op : Arith} {left right : Expr} (hop : op = .div ∨ op = .rem)
      (hright : right.value? library p1 p2 = some 0) :
      Traps library p1 p2 (.node (.arith op) left right)
  | library {left right : Expr} {x y : Word} (hleft : left.value? library p1 p2 = some x)
      (hright : right.value? library p1 p2 = some y) (h : library x y = none) :
      Traps library p1 p2 (.node .power left right)

end Expr

/-- An operation gives no value exactly when it divides by zero. -/
theorem Arith.value?_eq_none_iff {op : Arith} {x y : Word} :
    op.value? x y = none ↔ (op = .div ∨ op = .rem) ∧ y = 0 := by
  cases op <;> simp [Arith.value?]

namespace Expr

variable {library : Word → Word → Option Word} {p1 p2 : Word}

theorem value?_node (op : Operator) (left right : Expr) :
    (node op left right).value? library p1 p2 =
      (left.value? library p1 p2).bind fun x =>
        (right.value? library p1 p2).bind fun y => applyOperator library op x y := rfl

/-- An operator gives no value when it divides by zero or the library gives none. -/
theorem traps_of_applyOperator {op : Operator} {left right : Expr} {x y : Word}
    (hleft : left.value? library p1 p2 = some x) (hright : right.value? library p1 p2 = some y)
    (h : applyOperator library op x y = none) : (node op left right).Traps library p1 p2 := by
  cases op with
  | arith op =>
    obtain ⟨hop, rfl⟩ := Arith.value?_eq_none_iff.mp h
    exact .divisor hop hright
  | power => exact .library hleft hright h

theorem value?_eq_none_of_traps {e : Expr} (h : e.Traps library p1 p2) :
    e.value? library p1 p2 = none := by
  induction h with
  | left _ ih => rw [value?_node, ih]; rfl
  | @right op left right _ ih =>
    rw [value?_node, ih]
    cases left.value? library p1 p2 <;> rfl
  | @divisor op left right hop hright =>
    rw [value?_node, hright]
    cases left.value? library p1 p2 with
    | none => rfl
    | some x => exact Arith.value?_eq_none_iff.mpr ⟨hop, rfl⟩
  | library hleft hright h => rw [value?_node, hleft, hright]; exact h

/-- **A tree has no value exactly when its evaluation traps.** -/
theorem value?_eq_none_iff (e : Expr) :
    e.value? library p1 p2 = none ↔ e.Traps library p1 p2 := by
  refine ⟨fun h => ?_, value?_eq_none_of_traps⟩
  induction e with
  | param p => cases p <;> exact nomatch h
  | literal l => exact nomatch h
  | node op left right ihl ihr =>
    cases hleft : left.value? library p1 p2 with
    | none => exact .left (ihl hleft)
    | some x =>
      cases hright : right.value? library p1 p2 with
      | none => exact .right (ihr hright)
      | some y =>
        rw [value?_node, hleft, hright] at h
        exact traps_of_applyOperator hleft hright h

end Expr

/-! ## Sequences of operations -/

namespace Wasm

/-- Go on after an operation that did not jump, trap or fail. -/
def Outcome.andThen (o : Outcome) (k : State → Outcome) : Outcome :=
  match o with
  | .next s => k s
  | o => o

variable {callee? : Nat → Option Callee} {laps : Nat}

theorem execAll_cons (op : Op) (ops : List Op) (s : State) :
    execAll callee? laps (op :: ops) s =
      (exec callee? laps op s).andThen (execAll callee? laps ops) := by
  rw [execAll]
  cases exec callee? laps op s <;> rfl

theorem execAll_append (ops more : List Op) (s : State) :
    execAll callee? laps (ops ++ more) s =
      (execAll callee? laps ops s).andThen (execAll callee? laps more) := by
  induction ops generalizing s with
  | nil => rfl
  | cons op ops ih =>
    rw [List.cons_append, execAll_cons, execAll_cons]
    cases exec callee? laps op s with
    | next t => exact ih t
    | jump label t => rfl
    | trap t => rfl
    | stuck => rfl
    | endless => rfl

/-- What a function of two words gives to its callers. -/
def Result.ofWord : Except Trap Word → Result
  | .ok w => .values [w]
  | .error t => .trap t

/-- What an operand that is a word or a trap does to the stack. -/
def Outcome.ofWord (s : State) : Except Trap Word → Outcome
  | .ok w => .next { s with stack := w :: s.stack }
  | .error t => .trap t

/-- The callee is the function `f` of two words. -/
structure Callee.Computes (c : Callee) (f : Word → Word → Except Trap Word) : Prop where
  signature : c.signature = ⟨2, 1⟩
  run : ∀ x y, c.run [x, y] = .ofWord (f x y)

/-- A function of two words as a callee. -/
def Callee.ofFunction (f : Word → Word → Except Trap Word) : Callee where
  signature := ⟨2, 1⟩
  run
    | [x, y] => .ofWord (f x y)
    | _ => .stuck

theorem Callee.computes_ofFunction (f : Word → Word → Except Trap Word) :
    (Callee.ofFunction f).Computes f :=
  ⟨rfl, fun _ _ => rfl⟩

theorem Callee.Computes.callWith {c : Callee} {f : Word → Word → Except Trap Word}
    (h : c.Computes f) (x y : Word) (stack locals : List Word) :
    Wasm.callWith c ⟨y :: x :: stack, locals⟩ = .ofWord ⟨stack, locals⟩ (f x y) := by
  have hrun : c.run (((y :: x :: stack).take 2).reverse) = .ofWord (f x y) := h.run x y
  rw [Wasm.callWith, h.signature]
  simp only [hrun]
  cases f x y <;> rfl

end Wasm

/-! ## The code of a tree -/

/-- The value of an operator, or the trap it runs into. -/
def Operator.outcome (f : Word → Word → Except Wasm.Trap Word) :
    Operator → Word → Word → Except Wasm.Trap Word
  | .arith op, x, y =>
    match op.value? x y with
    | some w => .ok w
    | none => .error ⟨.divideByZero, []⟩
  | .power, x, y => f x y

namespace Expr

/-- The value of a tree, or the trap it runs into first when operands are evaluated from left to
right. -/
def outcome (f : Word → Word → Except Wasm.Trap Word) (p1 p2 : Word) :
    Expr → Except Wasm.Trap Word
  | .param .p1 => .ok p1
  | .param .p2 => .ok p2
  | .literal l => .ok (BitVec.ofNat 32 (Token.literalValue l.text))
  | .node op left right =>
    match left.outcome f p1 p2 with
    | .error t => .error t
    | .ok x =>
      match right.outcome f p1 p2 with
      | .error t => .error t
      | .ok y => op.outcome f x y

theorem toOption_operator_outcome (f : Word → Word → Except Wasm.Trap Word) (op : Operator)
    (x y : Word) :
    (op.outcome f x y).toOption = applyOperator (fun x y => (f x y).toOption) op x y := by
  cases op with
  | arith op =>
    rw [Operator.outcome, applyOperator]
    cases op.value? x y <;> rfl
  | power => rfl

/-- The value of a tree is its outcome without the causes of traps. -/
theorem toOption_outcome (f : Word → Word → Except Wasm.Trap Word) (p1 p2 : Word) (e : Expr) :
    (e.outcome f p1 p2).toOption = e.value? (fun x y => (f x y).toOption) p1 p2 := by
  induction e with
  | param p => cases p <;> rfl
  | literal l => rfl
  | node op left right ihl ihr =>
    rw [value?_node, ← ihl, ← ihr, outcome]
    cases left.outcome f p1 p2 with
    | error t => rfl
    | ok x =>
      cases right.outcome f p1 p2 with
      | error t => rfl
      | ok y => exact toOption_operator_outcome f op x y

end Expr

namespace Wasm

variable {callee? : Nat → Option Callee} {laps : Nat} {funcIndex : String → Nat}
  {f : Word → Word → Except Trap Word}

theorem exec_load (p : Param) (a b : Word) (stack : List Word) :
    exec callee? laps (ofInstr funcIndex (.load p)) ⟨stack, [a, b]⟩ =
      .ofWord ⟨stack, [a, b]⟩ ((Expr.param p).outcome f a b) := by
  cases p <;> rfl

theorem exec_literal (l : Literal) (a b : Word) (s : State) :
    exec callee? laps (ofInstr funcIndex l.instr) s =
      .ofWord s ((Expr.literal l).outcome f a b) := by
  have hword : Word.ofInteger (Token.literalValue l.text : Int)
      = BitVec.ofNat 32 (Token.literalValue l.text) := BitVec.ofInt_natCast 32 _
  rw [Literal.instr, ofInstr, hword]
  rfl

theorem apply_wordOp (op : Arith) (x y : Word) :
    (wordOp op).apply x y =
      match op.value? x y with
      | some w => .ok w
      | none => .error .divideByZero := by
  cases op with
  | add => rfl
  | sub => rfl
  | mul => rfl
  | div =>
    rw [wordOp, WordOp.apply, Arith.value?]
    by_cases hy : y = 0
    · rw [if_pos hy, if_pos hy]
    · rw [if_neg hy, if_neg hy]
  | rem =>
    rw [wordOp, WordOp.apply, Arith.value?]
    by_cases hy : y = 0
    · rw [if_pos hy, if_pos hy]
    · rw [if_neg hy, if_neg hy]

/-- The right operand of an operation is on top. -/
theorem exec_arith (op : Arith) (x y : Word) (stack locals : List Word) :
    exec callee? laps (.word (wordOp op)) ⟨y :: x :: stack, locals⟩ =
      .ofWord ⟨stack, locals⟩ ((Operator.arith op).outcome f x y) := by
  simp only [exec, apply_wordOp, Operator.outcome]
  cases op.value? x y <;> rfl

theorem exec_operator (op : Operator) (x y : Word) (stack locals : List Word)
    (hcall : op = .power → ∃ c, callee? (funcIndex "pow") = some c ∧ c.Computes f) :
    exec callee? laps (ofInstr funcIndex op.instr) ⟨y :: x :: stack, locals⟩ =
      .ofWord ⟨stack, locals⟩ (op.outcome f x y) := by
  cases op with
  | arith op => exact exec_arith op x y stack locals
  | power =>
    obtain ⟨c, hc, hf⟩ := hcall rfl
    rw [Operator.instr, ofInstr, exec, hc]
    exact hf.callWith x y stack locals

/-- **The code of a tree pushes its value or traps.** The stack below is arbitrary and stays as it
is; the induction on the tree needs this, since the right operand runs above the left one. -/
theorem execAll_instrs {e : Expr}
    (hcall : .call "pow" ∈ e.instrs → ∃ c, callee? (funcIndex "pow") = some c ∧ c.Computes f)
    (a b : Word) (stack : List Word) :
    execAll callee? laps (e.instrs.map (ofInstr funcIndex)) ⟨stack, [a, b]⟩ =
      .ofWord ⟨stack, [a, b]⟩ (e.outcome f a b) := by
  induction e generalizing stack with
  | param p =>
    rw [Expr.instrs, List.map_singleton, execAll_cons, exec_load (f := f)]
    cases p <;> rfl
  | literal l =>
    rw [Expr.instrs, List.map_singleton, execAll_cons, exec_literal (f := f) l a b]
    rfl
  | node op left right ihl ihr =>
    have hleft := ihl (fun h => hcall (List.mem_append_left _ (List.mem_append_left _ h))) stack
    have hright := ihr fun h => hcall (List.mem_append_left _ (List.mem_append_right _ h))
    have hop : op = .power → ∃ c, callee? (funcIndex "pow") = some c ∧ c.Computes f := by
      rintro rfl
      exact hcall (List.mem_append_right _ (List.mem_singleton.mpr rfl))
    rw [Expr.instrs, List.map_append, List.map_append, execAll_append, execAll_append, hleft,
      Expr.outcome]
    cases left.outcome f a b with
    | error t => rfl
    | ok x =>
      simp only [Outcome.ofWord, Outcome.andThen]
      rw [hright]
      cases right.outcome f a b with
      | error t => rfl
      | ok y =>
        simp only [Outcome.ofWord]
        rw [List.map_singleton, execAll_cons, exec_operator op x y stack [a, b] hop]
        cases op.outcome f x y <;> rfl

/-- The instructions of a program in their order, on two inputs and an empty stack. -/
def execProgram (callee? : Nat → Option Callee) (laps : Nat) (funcIndex : String → Nat)
    (p : Program) (a b : Word) : Outcome :=
  execAll callee? laps (p.instrs.map (ofInstr funcIndex)) ⟨[], [a, b]⟩

/-- **A compiled program from an empty stack.** Operands are never missing: the run ends with one
value or with a trap. It is the value of the tree that the tokens list, and a trap exactly when the
evaluation of that tree divides by zero or the power function traps. -/
theorem execProgram_of_compile (callee? : Nat → Option Callee) (laps : Nat)
    (funcIndex : String → Nat) {tokens : List String} {p : Program}
    (h : Program.compile tokens = .ok p) (a b : Word) {c : Callee}
    (hc : callee? (funcIndex "pow") = some c) (hf : c.Computes f) :
    ((∃ v, execProgram callee? laps funcIndex p a b = .next ⟨[v], [a, b]⟩) ∨
        ∃ t, execProgram callee? laps funcIndex p a b = .trap t) ∧
      (∃ e : Expr, e.tokens = tokens) ∧
      ∀ e : Expr, e.tokens = tokens →
        (∀ v, execProgram callee? laps funcIndex p a b = .next ⟨[v], [a, b]⟩ ↔
            e.value? (fun x y => (f x y).toOption) a b = some v) ∧
          ((∃ t, execProgram callee? laps funcIndex p a b = .trap t) ↔
            e.Traps (fun x y => (f x y).toOption) a b) := by
  have hrun : ∀ e : Expr, e.tokens = tokens →
      execProgram callee? laps funcIndex p a b = .ofWord ⟨[], [a, b]⟩ (e.outcome f a b) := by
    intro e he
    rw [execProgram, Program.instrs_of_compile h he]
    exact execAll_instrs (fun _ => ⟨c, hc, hf⟩) a b []
  obtain ⟨e₀, he₀⟩ := Program.exists_tree_of_compile h
  refine ⟨?_, ⟨e₀, he₀⟩, fun e he => ?_⟩
  · rw [hrun e₀ he₀]
    cases e₀.outcome f a b with
    | ok v => exact .inl ⟨v, rfl⟩
    | error t => exact .inr ⟨t, rfl⟩
  · rw [hrun e he, ← Expr.value?_eq_none_iff, ← Expr.toOption_outcome]
    cases e.outcome f a b with
    | ok w => simp [Outcome.ofWord, Except.toOption]
    | error t => simp [Outcome.ofWord, Except.toOption]

/-- With subtraction in the place of powers, and a trap for zero: `p1` and `p2 - 7` are handed
over in this order. -/
theorem execProgram_of_compile_subtraction :
    let f : Word → Word → Except Trap Word := fun x y =>
      if y = 0 then .error ⟨.unreachable, []⟩ else .ok (x - y)
    ∃ p, Program.compile ["p1", "p2", "7", "sub", "cpow"] = .ok p ∧
      execProgram (fun _ => some (.ofFunction f)) 0 (fun _ => 0) p 5 9 = .next ⟨[3], [5, 9]⟩ ∧
      ∃ t, execProgram (fun _ => some (.ofFunction f)) 0 (fun _ => 0) p 5 7 = .trap t := by
  intro f
  let e : Expr := .node .power (.param .p1)
    (.node (.arith .sub) (.param .p2) (.literal ⟨"7", by decide, by decide⟩))
  obtain ⟨p, hp⟩ := Program.exists_compile_tokens e
  have hrun := fun b => (execProgram_of_compile (fun _ => some (.ofFunction f)) 0 (fun _ => 0)
    hp 5 b rfl (Callee.computes_ofFunction f)).2.2 e rfl
  exact ⟨p, hp, ((hrun 9).1 3).mpr rfl, (hrun 7).2.mpr (.library rfl rfl rfl)⟩

end Wasm

end StackLang
