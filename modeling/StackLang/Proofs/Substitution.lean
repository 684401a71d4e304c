import StackLang.Proofs.StackMachine

/-!
# Programs in the place of inputs

A program can stand in the place of an input of another one: every `p1` becomes one list of tokens
and every `p2` another one. On trees this is substitution for the two kinds of leaves that are
inputs, and the listing of the new tree is the new list of tokens, since no literal and no operator
is written like an input.

What is put in the place of an input runs above whatever the surrounding program has on its stack
at that point. It leaves that part alone by `Wasm.execAll_instrs`, and nothing more is needed about
runs: as long as the two programs have values, the surrounding one cannot tell these values from
inputs.

## Main definitions

* `Program.substitute` — tokens with programs in the place of inputs
* `Expr.substitute` — the same for trees

## Main results

* `Expr.tokens_substitute` — the listing of a tree after a substitution
* `Expr.outcome_substitute` — its value, or its trap
* `Wasm.execProgram_substitute` — programs compose by substitution
-/

namespace StackLang

/-! ## Substitution -/

namespace Program

/-- What stands in the place of a token when the inputs are replaced. -/
def replacement (first second : List String) (token : String) : List String :=
  if token = Param.p1.name then first else if token = Param.p2.name then second else [token]

/-- The tokens with `first` in the place of every `p1` and `second` in the place of every `p2`. -/
def substitute (first second tokens : List String) : List String :=
  tokens.flatMap (replacement first second)

theorem substitute_append (first second tokens more : List String) :
    substitute first second (tokens ++ more) =
      substitute first second tokens ++ substitute first second more :=
  List.flatMap_append

theorem replacement_of_ne {token : String} (h : ∀ p : Param, token ≠ p.name)
    (first second : List String) : replacement first second token = [token] := by
  rw [replacement, if_neg (h .p1), if_neg (h .p2)]

end Program

/-- A literal is not written like an input. -/
theorem Literal.text_ne_name (l : Literal) (p : Param) : l.text ≠ p.name := by
  have hname : Token.isLiteral p.name = false := by
    cases p <;> rfl
  intro h
  have hliteral := l.isLiteral
  rw [h, hname] at hliteral
  exact Bool.noConfusion hliteral

/-- An operator is not written like an input. -/
theorem Operator.word_ne_name (op : Operator) (p : Param) : op.word ≠ p.name := by
  intro h
  have hmeans : Token.Means p.name op.instr := h ▸ .operator op
  have hinstr : Instr.load p = op.instr := (Token.Means.param p).unique hmeans
  cases op <;> exact nomatch hinstr

namespace Expr

/-- The tree with `first` in the place of the first input and `second` in that of the second. -/
def substitute (e first second : Expr) : Expr :=
  match e with
  | .param .p1 => first
  | .param .p2 => second
  | .literal l => .literal l
  | .node op left right => .node op (left.substitute first second) (right.substitute first second)

/-- **The listing of a tree after a substitution** is the substitution in its listing. -/
theorem tokens_substitute (e first second : Expr) :
    (e.substitute first second).tokens =
      Program.substitute first.tokens second.tokens e.tokens := by
  induction e with
  | param p => cases p <;> exact (List.append_nil _).symm
  | literal l =>
    have hkept := Program.replacement_of_ne l.text_ne_name first.tokens second.tokens
    simp [substitute, tokens, Program.substitute, hkept]
  | node op left right ihl ihr =>
    have hkept := Program.replacement_of_ne op.word_ne_name first.tokens second.tokens
    have hroot : Program.substitute first.tokens second.tokens [op.word] = [op.word] := by
      simp [Program.substitute, hkept]
    rw [substitute, tokens, tokens, ihl, ihr, Program.substitute_append, Program.substitute_append,
      hroot]

/-- **The value of a tree after a substitution.** Trees that have values are as good as inputs with
these values. -/
theorem outcome_substitute {f : Word → Word → Except Wasm.Trap Word} {a b u v : Word}
    {first second : Expr} (hfirst : first.outcome f a b = .ok u)
    (hsecond : second.outcome f a b = .ok v) (e : Expr) :
    (e.substitute first second).outcome f a b = e.outcome f u v := by
  induction e with
  | param p =>
    cases p with
    | p1 => exact hfirst
    | p2 => exact hsecond
  | literal l => rfl
  | node op left right ihl ihr => rw [substitute, outcome, outcome, ihl, ihr]

end Expr

/-! ## Runs -/

namespace Wasm

variable {callee? : Nat → Option Callee} {laps : Nat} {funcIndex : String → Nat}
  {f : Word → Word → Except Trap Word} {c : Callee}

/-- A run of a compiled program ends as its tree says. -/
theorem execProgram_eq_ofWord (hc : callee? (funcIndex "pow") = some c) (hf : c.Computes f)
    {p : Program} {e : Expr} (h : Program.compile e.tokens = .ok p) (a b : Word) :
    execProgram callee? laps funcIndex p a b = .ofWord ⟨[], [a, b]⟩ (e.outcome f a b) := by
  rw [execProgram, Program.instrs_of_compile h rfl]
  exact execAll_instrs (fun _ => ⟨c, hc, hf⟩) a b []

theorem Outcome.eq_ok_of_ofWord_eq_next {s : State} {o : Except Trap Word} {w : Word}
    (h : Outcome.ofWord s o = .next { s with stack := w :: s.stack }) : o = .ok w := by
  cases o with
  | ok v =>
    have hstack := congrArg State.stack (Outcome.next.inj h)
    exact congrArg _ (List.cons.inj hstack).1
  | error t => exact nomatch h

/-- **Programs compose by substitution.** Programs put in the place of the inputs of a program make
a program again. On inputs for which the first has the value `u` and the second the value `v`, it
ends as the surrounding program does on `u` and `v`: with the same value, or with the same trap. -/
theorem execProgram_substitute (callee? : Nat → Option Callee) (laps : Nat)
    (funcIndex : String → Nat) (hc : callee? (funcIndex "pow") = some c) (hf : c.Computes f)
    (tokens first second : List String) {p p₁ p₂ : Program}
    (h : Program.compile tokens = .ok p) (h₁ : Program.compile first = .ok p₁)
    (h₂ : Program.compile second = .ok p₂) :
    ∃ q, Program.compile (Program.substitute first second tokens) = .ok q ∧
      ∀ a b u v : Word,
        execProgram callee? laps funcIndex p₁ a b = .next ⟨[u], [a, b]⟩ →
        execProgram callee? laps funcIndex p₂ a b = .next ⟨[v], [a, b]⟩ →
        ∃ outcome : Except Trap Word,
          execProgram callee? laps funcIndex q a b = .ofWord ⟨[], [a, b]⟩ outcome ∧
            execProgram callee? laps funcIndex p u v = .ofWord ⟨[], [u, v]⟩ outcome := by
  obtain ⟨e, rfl⟩ := Program.exists_tree_of_compile h
  obtain ⟨e₁, rfl⟩ := Program.exists_tree_of_compile h₁
  obtain ⟨e₂, rfl⟩ := Program.exists_tree_of_compile h₂
  obtain ⟨q, hq⟩ := Program.exists_compile_tokens (e.substitute e₁ e₂)
  refine ⟨q, by rw [← Expr.tokens_substitute]; exact hq, fun a b u v hu hv => ?_⟩
  rw [execProgram_eq_ofWord hc hf h₁] at hu
  rw [execProgram_eq_ofWord hc hf h₂] at hv
  have hvalue₁ : e₁.outcome f a b = .ok u := Outcome.eq_ok_of_ofWord_eq_next hu
  have hvalue₂ : e₂.outcome f a b = .ok v := Outcome.eq_ok_of_ofWord_eq_next hv
  refine ⟨e.outcome f u v, ?_, execProgram_eq_ofWord hc hf h u v⟩
  rw [execProgram_eq_ofWord hc hf hq, Expr.outcome_substitute hvalue₁ hvalue₂]

/-- A quotient of a sum and a difference, both over the same inputs. On `5` and `9` it is the
quotient of `14` and `2`, and on `5` and `7` the divisor is zero. -/
theorem execProgram_substitute_quotient :
    let power : Callee := .ofFunction fun x _ => .ok x
    ∃ q, Program.compile ["p1", "p2", "add", "p2", "7", "sub", "div"] = .ok q ∧
      execProgram (fun _ => some power) 0 (fun _ => 0) q 5 9 = .next ⟨[7], [5, 9]⟩ ∧
      ∃ t, execProgram (fun _ => some power) 0 (fun _ => 0) q 5 7 = .trap t := by
  intro power
  obtain ⟨q, hq, hruns⟩ := execProgram_substitute (fun _ => some power) 0 (fun _ => 0) rfl
    (Callee.computes_ofFunction _) ["p1", "p2", "div"] ["p1", "p2", "add"] ["p2", "7", "sub"]
    rfl rfl rfl
  refine ⟨q, hq, ?_, ?_⟩
  · obtain ⟨outcome, hrun, hsurrounding⟩ := hruns 5 9 14 2 rfl rfl
    obtain rfl : outcome = .ok 7 := Outcome.eq_ok_of_ofWord_eq_next hsurrounding.symm
    exact hrun
  · obtain ⟨outcome, hrun, hsurrounding⟩ := hruns 5 7 12 0 rfl rfl
    cases outcome with
    | ok w => exact nomatch hsurrounding
    | error t => exact ⟨t, hrun⟩

end Wasm

end StackLang
