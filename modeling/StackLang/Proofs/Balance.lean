import Mathlib.Data.List.Chain
import StackLang.Proofs.FirstFault

/-!
# Depths as counts

The depth that the compiler keeps is a count: of the tokens that push, less those that consume.
Where the count starts at zero it is positive after every token that was read, since a token that
consumes needs two values and leaves one. All the numbers that the compiler reports follow from
this, those of a program as well as those of a fault. In particular no values at all can be found
by the first token only, and every later token finds one value at least.

## Main definitions

* `Token.pushes`, `Token.consumes` — the two kinds of tokens
* `Program.balance` — tokens that push, less tokens that consume

## Main results

* `Program.Reads.endDepth_eq` — the depth after a row of tokens is what they count up to
* `Program.Reads.one_le_endDepth` — after the first token the depth is positive
* `Program.exists_of_scan_error` — where a scan ends that meets a fault
* `Program.fault_data_exact` — what the faults of the compiler say
-/

namespace StackLang

/-! ## Tokens that push and tokens that consume -/

namespace Token

/-- The words for what takes two values and leaves one. -/
def operatorWords : List String := ["add", "sub", "mul", "div", "rem", "cpow"]

/-- Whether the token takes two values and leaves one. -/
def consumes (token : String) : Bool := operatorWords.contains token

/-- Whether the token takes no value and leaves one. -/
def pushes (token : String) : Bool := token = "p1" || token = "p2" || isLiteral token

theorem consumes_of_isLiteral {token : String} (h : isLiteral token = true) :
    consumes token = false := by
  have hwords : ∀ w ∈ operatorWords, isLiteral w = false := by decide
  rw [Bool.eq_false_iff]
  intro hmem
  have hword := hwords token (List.contains_iff_mem.mp hmem)
  rw [h] at hword
  exact Bool.noConfusion hword

/-- **A token pushes or consumes**, and its instruction does the same. -/
theorem Means.kind {token : String} {i : Instr} (h : Means token i) :
    (pushes token = true ∧ consumes token = false ∧ i.pops = 0) ∨
      (pushes token = false ∧ consumes token = true ∧ i.pops = 2) := by
  cases h with
  | param p => cases p <;> exact .inl ⟨rfl, rfl, rfl⟩
  | literal l =>
    have hpushes : pushes l.text = true := by simp [pushes, l.isLiteral]
    exact .inl ⟨hpushes, consumes_of_isLiteral l.isLiteral, rfl⟩
  | operator op =>
    rcases op with op | _
    · cases op <;> exact .inr ⟨rfl, rfl, rfl⟩
    · exact .inr ⟨rfl, rfl, rfl⟩

end Token

namespace Program

/-- The number of tokens that push, less the number of tokens that consume. -/
def balance (tokens : List String) : Int :=
  (tokens.countP Token.pushes : Int) - tokens.countP Token.consumes

@[simp] theorem balance_nil : balance [] = 0 := rfl

theorem balance_cons {token : String} {i : Instr} (h : Token.Means token i)
    (tokens : List String) :
    balance (token :: tokens) = (i.pushes : Int) - i.pops + balance tokens := by
  simp only [balance, List.countP_cons, Instr.pushes]
  rcases h.kind with ⟨hp, hc, hpops⟩ | ⟨hp, hc, hpops⟩
  · simp only [hp, hc, hpops, if_true, Bool.false_eq_true, if_false]
    omega
  · simp only [hp, hc, hpops, if_true, Bool.false_eq_true, if_false]
    omega

/-! ## Rows of tokens -/

section

variable {depth : Int} {tokens : List String} {steps : List (Instr × Int)}

theorem Reads.length_eq (h : Reads depth tokens steps) : steps.length = tokens.length := by
  induction h with
  | nil => rfl
  | cons _ _ _ ih => rw [List.length_cons, List.length_cons, ih]

theorem Reads.take (h : Reads depth tokens steps) (n : Nat) :
    Reads depth (tokens.take n) (steps.take n) := by
  induction h generalizing n with
  | nil depth =>
    rw [List.take_nil, List.take_nil]
    exact .nil depth
  | cons hm hd _ ih =>
    cases n with
    | zero => exact .nil _
    | succ n => exact .cons hm hd (ih n)

/-- **The depth after a row of tokens** is what they count up to. -/
theorem Reads.endDepth_eq (h : Reads depth tokens steps) :
    endDepth depth steps = depth + balance tokens := by
  induction h with
  | nil depth => simp
  | cons hm _ _ ih =>
    rw [endDepth_cons, ih, balance_cons hm]
    omega

/-- **After the first token the depth is positive.** Whatever consumes needs two values for the one
that it leaves. -/
theorem Reads.one_le_endDepth (h : Reads depth tokens steps) (hdepth : 0 ≤ depth)
    (hne : 1 ≤ depth ∨ tokens ≠ []) : 1 ≤ endDepth depth steps := by
  induction h with
  | nil depth => simpa using hne
  | @cons depth token i tokens steps hm hd _ ih =>
    have hnext : 1 ≤ depth - i.pops + i.pushes := by
      rcases i.pops_eq with hpops | hpops <;> simp only [hpops, Instr.pushes] at hd ⊢ <;> omega
    rw [endDepth_cons]
    exact ih (by omega) (.inl hnext)

/-- The depth after the token at place `k` is the depth after a row of tokens. -/
theorem endDepth_take {k : Nat} {s : Instr × Int} (h : steps[k]? = some s) :
    endDepth depth (steps.take (k + 1)) = s.2 := by
  rw [List.take_add_one, h, endDepth_append]
  simp

/-- Every token changes the depth by one. -/
theorem Reads.isChain (h : Reads depth tokens steps) :
    List.IsChain (fun d d' : Int => (d' - d).natAbs = 1) (depth :: steps.map (·.2)) := by
  induction h with
  | nil depth => exact .singleton depth
  | @cons depth token i tokens steps _ _ _ ih =>
    rw [List.map_cons]
    refine .cons_cons ?_ ih
    rcases i.pops_eq with hpops | hpops <;> simp only [hpops, Instr.pushes] <;> omega

end

/-! ## Faults -/

/-- A scan that ends at a fault has read the tokens before it, and no further one. -/
theorem exists_of_scan_error {index : Nat} {depth : Int} {tokens : List String} {f : Fault}
    (h : scan index depth tokens = .error f) :
    ∃ before token after steps, tokens = before ++ token :: after ∧ Reads depth before steps ∧
      step (index + before.length) (endDepth depth steps) token = .error f := by
  induction tokens generalizing index depth with
  | nil => cases h
  | cons token tokens ih =>
    rw [scan_cons] at h
    cases hstep : step index depth token with
    | error g =>
      rw [hstep] at h
      obtain rfl : g = f := Except.error.inj h
      exact ⟨[], token, tokens, [], rfl, .nil depth, hstep⟩
    | ok s =>
      rw [hstep] at h
      change (scan (index + 1) s.2 tokens >>= _) = _ at h
      cases hscan : scan (index + 1) s.2 tokens with
      | ok rest =>
        rw [hscan] at h
        cases h
      | error g =>
        rw [hscan] at h
        obtain rfl : g = f := Except.error.inj h
        obtain ⟨before, token', after, steps, rfl, hreads, hfault⟩ := ih hscan
        obtain ⟨hm, hd, hs⟩ := step_eq_ok_iff.mp hstep
        rw [hs] at hreads hfault
        refine ⟨token :: before, token', after, _ :: steps, rfl, .cons hm hd hreads, ?_⟩
        rw [endDepth_cons, List.length_cons, ← hfault]
        congr 1
        omega

/-- What is wrong with a single token, with all that is known about it. -/
theorem step_eq_error {index : Nat} {depth : Int} {token : String} {f : Fault}
    (h : step index depth token = .error f) :
    (f = .invalidToken index token ∧ token ∉ Token.vocabulary.map (·.1) ∧
        Token.isLiteral token = false) ∨
      (∃ i, f = .stackUnderflow index token depth ∧ Token.Means token i ∧ depth < i.pops) ∨
      ∃ digits, f = .numeralTooLong digits := by
  cases hc : Token.classify token index with
  | ok i =>
    rw [step, hc] at h
    change (stackEffect (.instr i) depth index token >>= fun d => .ok (i, d)) = .error f at h
    rw [stackEffect] at h
    split at h
    · next hpops =>
      obtain rfl : Fault.stackUnderflow index token depth = f := Except.error.inj h
      exact .inr (.inl ⟨i, rfl, (Token.classify_eq_ok_iff _).mp hc, hpops⟩)
    · cases h
  | error g =>
    rw [step, hc] at h
    obtain rfl : g = f := Except.error.inj h
    rw [Token.classify] at hc
    split at hc
    · cases hc
    · next hlookup =>
      split at hc
      · rw [Token.literal] at hc
        split at hc
        · exact .inr (.inr ⟨_, (Except.error.inj hc).symm⟩)
        · cases hc
      · next hliteral =>
        refine .inl ⟨(Except.error.inj hc).symm, ?_, Bool.eq_false_iff.mpr hliteral⟩
        intro hmem
        obtain ⟨entry, hentry, rfl⟩ := List.mem_map.mp hmem
        have hne := List.lookup_eq_none_iff.mp hlookup entry hentry
        simp at hne

/-- **Where the compiler stops**: at a token that it cannot read, or after the last one. -/
theorem exists_of_compile_error {tokens : List String} {f : Fault}
    (h : compile tokens = .error f) :
    (∃ before token after steps, tokens = before ++ token :: after ∧ Reads 0 before steps ∧
        step before.length (endDepth 0 steps) token = .error f) ∨
      ∃ steps, Reads 0 tokens steps ∧ endDepth 0 steps ≠ 1 ∧
        f = .stackImbalance (endDepth 0 steps) := by
  cases hscan : scan 0 0 tokens with
  | error g =>
    obtain rfl : g = f := Except.error.inj ((compile_of_scan_error hscan).symm.trans h)
    obtain ⟨before, token, after, steps, hsplit, hreads, hstep⟩ := exists_of_scan_error hscan
    rw [Nat.zero_add] at hstep
    exact .inl ⟨before, token, after, steps, hsplit, hreads, hstep⟩
  | ok steps =>
    have hreads := (scan_eq_ok_iff 0).mp hscan
    rw [compile_of_reads hreads] at h
    split at h
    · cases h
    · next hd => exact .inr ⟨steps, hreads, hd, (Except.error.inj h).symm⟩

/-- An operator that finds too few values after some tokens finds one, and none if it comes
first. -/
theorem Reads.underflow {tokens : List String} {steps : List (Instr × Int)} {token : String}
    {i : Instr} (h : Reads 0 tokens steps) (hm : Token.Means token i)
    (hpops : endDepth 0 steps < i.pops) :
    token ∈ Token.operatorWords ∧ (endDepth 0 steps = 0 ↔ tokens.length = 0) ∧
      (tokens.length ≠ 0 → endDepth 0 steps = 1) := by
  have hpositive : tokens ≠ [] → 1 ≤ endDepth 0 steps :=
    fun hne => h.one_le_endDepth (Int.le_refl 0) (.inr hne)
  have hempty : tokens = [] → endDepth 0 steps = 0 := by
    rintro rfl
    rw [h.endDepth_eq]
    rfl
  rw [Ne, List.length_eq_zero_iff]
  rcases hm.kind with ⟨-, -, hzero⟩ | ⟨-, hconsumes, htwo⟩
  · -- what pushes asks for nothing, and there is never less than that
    by_cases hne : tokens = []
    · have := hempty hne
      omega
    · have := hpositive hne
      omega
  · refine ⟨List.contains_iff_mem.mp hconsumes, ⟨fun hzero => ?_, hempty⟩, fun hne => ?_⟩
    · by_contra hne
      have := hpositive hne
      omega
    · have := hpositive hne
      omega

/-- **What the faults of the compiler say.** A token that is refused is the one at the place that
is told, counted from zero and shown from one. It is no word and no row of digits, or it is an
operator that finds fewer than two values: as many as the tokens before it count up to, which is
none at the first place and one at all others. A wrong number of values at the end is what all
tokens count up to: none if there is no token, and else two or more. -/
theorem fault_data_exact (tokens : List String) :
    (∀ index text, compile tokens = .error (.invalidToken index text) →
        ∃ i : Nat, index = i ∧ tokens[i]? = some text ∧
          (Fault.invalidToken index text).position? = some (i + 1 : Int) ∧
          text ∉ Token.vocabulary.map (·.1) ∧ Token.isLiteral text = false) ∧
      (∀ index token available,
        compile tokens = .error (.stackUnderflow index token available) →
          ∃ i : Nat, index = i ∧ tokens[i]? = some token ∧
            (Fault.stackUnderflow index token available).position? = some (i + 1 : Int) ∧
            token ∈ Token.operatorWords ∧ available = balance (tokens.take i) ∧
            (available = 0 ↔ i = 0) ∧ (i ≠ 0 → available = 1)) ∧
      ∀ depth, compile tokens = .error (.stackImbalance depth) →
        depth = balance tokens ∧ (depth = 0 ↔ tokens = []) ∧ (tokens ≠ [] → 2 ≤ depth) := by
  refine ⟨fun index text h => ?_, fun index token available h => ?_, fun depth h => ?_⟩
  · rcases exists_of_compile_error h with ⟨before, token, after, steps, rfl, -, hstep⟩ |
      ⟨steps, -, -, hfault⟩
    · rcases step_eq_error hstep with ⟨hfault, hword, hliteral⟩ | ⟨i, hfault, -⟩ | ⟨n, hfault⟩
      · obtain ⟨rfl, rfl⟩ := Fault.invalidToken.inj hfault
        exact ⟨before.length, rfl, by simp, rfl, hword, hliteral⟩
      · cases hfault
      · cases hfault
    · cases hfault
  · rcases exists_of_compile_error h with ⟨before, token', after, steps, rfl, hreads, hstep⟩ |
      ⟨steps, -, -, hfault⟩
    · rcases step_eq_error hstep with ⟨hfault, -⟩ | ⟨i, hfault, hm, hpops⟩ | ⟨n, hfault⟩
      · cases hfault
      · obtain ⟨rfl, rfl, rfl⟩ := Fault.stackUnderflow.inj hfault
        obtain ⟨hoperator, hnone, hone⟩ := hreads.underflow hm hpops
        refine ⟨before.length, rfl, by simp, rfl, hoperator, ?_, hnone, hone⟩
        rw [List.take_left, hreads.endDepth_eq, Int.zero_add]
      · cases hfault
    · cases hfault
  · rcases exists_of_compile_error h with ⟨before, token, after, steps, -, -, hstep⟩ |
      ⟨steps, hreads, hd, hfault⟩
    · rcases step_eq_error hstep with ⟨hfault, -⟩ | ⟨i, hfault, -⟩ | ⟨n, hfault⟩ <;> cases hfault
    · obtain rfl := Fault.stackImbalance.inj hfault
      have hbalance : endDepth 0 steps = balance tokens := by
        rw [hreads.endDepth_eq, Int.zero_add]
      have hpositive : tokens ≠ [] → 2 ≤ endDepth 0 steps := by
        intro hne
        have := hreads.one_le_endDepth (Int.le_refl 0) (.inr hne)
        omega
      refine ⟨hbalance, ⟨fun hzero => ?_, ?_⟩, hpositive⟩
      · by_contra hne
        have := hpositive hne
        omega
      · rintro rfl
        exact hbalance

/-- An operator at the fourth place that finds one value, a digit of another script, and no token at
all. -/
theorem fault_data_exact_fourth_place :
    (compile ["p1", "0", "add", "mul", "2x"] = .error (.stackUnderflow 3 "mul" 1) ∧
        balance ["p1", "0", "add"] = 1) ∧
      (compile ["p1", "٣", "add"] = .error (.invalidToken 1 "٣") ∧
        "٣" ∉ Token.vocabulary.map (·.1) ∧ Token.isLiteral "٣" = false) ∧
      compile [] = .error (.stackImbalance 0) ∧ balance [] = 0 := by
  have hunderflow : compile ["p1", "0", "add", "mul", "2x"] =
      .error (.stackUnderflow 3 "mul" 1) := rfl
  have hinvalid : compile ["p1", "٣", "add"] = .error (.invalidToken 1 "٣") := rfl
  have hempty : compile [] = .error (.stackImbalance 0) := rfl
  obtain ⟨i, hi, -, -, -, hbalance, -⟩ := (fault_data_exact _).2.1 _ _ _ hunderflow
  obtain ⟨j, -, -, -, hword, hliteral⟩ := (fault_data_exact _).1 _ _ hinvalid
  obtain rfl : i = 3 := by omega
  exact ⟨⟨hunderflow, hbalance.symm⟩, ⟨hinvalid, hword, hliteral⟩, hempty,
    ((fault_data_exact _).2.2 _ hempty).1.symm⟩

end Program

end StackLang
