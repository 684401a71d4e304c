import StackLang.Proofs.Postfix

/-!
# The first fault

A token is at fault when no program begins with the tokens up to it. This file shows that the
compiler stops at the first such token and nowhere else: a row of tokens that was read without a
fault can always be completed to a program, and no later token repairs a fault.

To complete a row that leaves `n + 1` values, `n` operators are enough; the empty row needs one
input.

## Main results

* `Program.viable_iff_reads` — the beginnings of programs are what is read without a fault
* `Program.FirstUnviable.exists_fault` — a fault depends on the tokens up to it only
* `Program.first_fault_wins` — the compiler stops at the first token that cannot be completed
-/

namespace StackLang

namespace Program

/-- Some program begins with these tokens. -/
def Viable (tokens : List String) : Prop := ∃ more p, compile (tokens ++ more) = .ok p

/-- `i` is the first place up to which the tokens begin no program. -/
structure FirstUnviable (tokens : List String) (i : Nat) : Prop where
  inRange : i < tokens.length
  unviable : ¬ Viable (tokens.take (i + 1))
  least : ∀ j < i, Viable (tokens.take (j + 1))

/-- The faults of the token at `index`. -/
inductive FaultAt (index : Nat) (token : String) : Fault → Prop
  /-- It is no instruction. -/
  | invalid : FaultAt index token (.invalidToken index token)
  /-- It needs more values than there are. -/
  | underflow (available : Int) : FaultAt index token (.stackUnderflow index token available)
  /-- It is a literal with too many digits. -/
  | tooLong (literal : Token.isLiteral token = true)
      (long : Number.maxDigits < token.toList.length) :
      FaultAt index token (.numeralTooLong token.toList.length)

/-- A token that cannot be classified has one of its own faults. -/
theorem faultAt_of_classify {index : Nat} {token : String} {f : Fault}
    (h : Token.classify token index = .error f) : FaultAt index token f := by
  rw [Token.classify] at h
  split at h
  · cases h
  · split at h
    · next hlit =>
      rw [Token.literal] at h
      split at h
      · next hlong =>
        obtain rfl := Except.error.inj h
        exact .tooLong hlit hlong
      · cases h
    · obtain rfl := Except.error.inj h
      exact .invalid

/-- A token that cannot be read has one of its own faults. -/
theorem faultAt_of_step {index : Nat} {depth : Int} {token : String} {f : Fault}
    (h : step index depth token = .error f) : FaultAt index token f := by
  cases hc : Token.classify token index with
  | error g =>
    rw [step, hc] at h
    obtain rfl : g = f := Except.error.inj h
    exact faultAt_of_classify hc
  | ok i =>
    rw [step, hc] at h
    change (stackEffect (.instr i) depth index token >>= fun d => .ok (i, d)) = .error f at h
    rw [stackEffect] at h
    split at h
    · obtain rfl : Fault.stackUnderflow index token depth = f := Except.error.inj h
      exact .underflow depth
    · cases h

/-! ## Completions -/

/-- As many operators as there are values too many leave one value. -/
theorem reads_operators (n : Nat) :
    ∃ steps, Reads (n + 1 : Nat) (List.replicate n "add") steps ∧
      endDepth (n + 1 : Nat) steps = 1 := by
  induction n with
  | zero => exact ⟨[], .nil _, rfl⟩
  | succ n ih =>
    obtain ⟨steps, hreads, hd⟩ := ih
    have hnext : ((n + 1 + 1 : Nat) : Int) - (2 : Nat) + (1 : Nat) = (n + 1 : Nat) := by omega
    refine ⟨(.arith .add, ((n + 1 + 1 : Nat) : Int) - (2 : Nat) + (1 : Nat)) :: steps, ?_, ?_⟩
    · exact .cons (.operator (.arith .add)) (by simp only [Instr.pops]; omega) (hnext ▸ hreads)
    · rw [endDepth_cons, hnext, hd]

/-- **What is read without a fault is the beginning of a program.** -/
theorem viable_of_reads {tokens : List String} {steps : List (Instr × Int)}
    (h : Reads 0 tokens steps) : Viable tokens := by
  obtain ⟨es, -, hlength⟩ := h.exists_listing [] rfl
  obtain ⟨more, rest, hrest, hd⟩ : ∃ more rest,
      Reads (endDepth 0 steps) more rest ∧ endDepth (endDepth 0 steps) rest = 1 := by
    rw [← hlength]
    cases es with
    | nil =>
      obtain ⟨rest, hrest, -, hd⟩ := reads_tokens (.param .p1) 0 (Int.le_refl 0)
      exact ⟨_, rest, hrest, hd⟩
    | cons e es =>
      obtain ⟨rest, hrest, hd⟩ := reads_operators es.length
      exact ⟨_, rest, hrest, hd⟩
  exact ⟨more, _, compile_eq_ok_iff.mpr
    ⟨steps ++ rest, h.append hrest, by rw [endDepth_append, hd], rfl⟩⟩

theorem viable_iff_reads {tokens : List String} :
    Viable tokens ↔ ∃ steps, Reads 0 tokens steps := by
  constructor
  · rintro ⟨more, p, hp⟩
    obtain ⟨steps, hreads, -, -⟩ := compile_eq_ok_iff.mp hp
    obtain ⟨first, -, -, hfirst, -⟩ := hreads.exists_prefix
    exact ⟨first, hfirst⟩
  · rintro ⟨steps, hreads⟩
    exact viable_of_reads hreads

/-! ## Faults -/

/-- A fault is met at the token that has it, whatever comes after. -/
theorem Reads.scan_append_error {index : Nat} {depth : Int} {tokens more : List String}
    {steps : List (Instr × Int)} {token : String} {f : Fault} (h : Reads depth tokens steps)
    (hf : step (index + tokens.length) (endDepth depth steps) token = .error f) :
    scan index depth (tokens ++ token :: more) = .error f := by
  induction h generalizing index with
  | nil depth =>
    rw [List.nil_append, scan_cons, show step index depth token = .error f from hf]
    rfl
  | @cons depth t i ts rest hm hd _ ih =>
    have hstep : step index depth t = .ok (i, depth - i.pops + i.pushes) :=
      step_eq_ok_iff.mpr ⟨hm, hd, rfl⟩
    rw [List.cons_append, scan_cons, hstep]
    change (scan (index + 1) (depth - i.pops + i.pushes) (ts ++ token :: more) >>= _) = _
    rw [ih (by rw [← hf, endDepth_cons, List.length_cons]; congr 1; omega)]
    rfl

/-- The tokens before the first place that cannot be completed are read. -/
theorem FirstUnviable.exists_reads {tokens : List String} {i : Nat} (h : FirstUnviable tokens i) :
    ∃ steps, Reads 0 (tokens.take i) steps := by
  cases i with
  | zero => exact ⟨[], .nil 0⟩
  | succ j => exact viable_iff_reads.mp (h.least j (Nat.lt_succ_self j))

/-- **The first place that cannot be completed holds a fault.** Every list that begins with the
tokens up to there is refused because of it. -/
theorem FirstUnviable.exists_fault {tokens : List String} {i : Nat} (h : FirstUnviable tokens i) :
    ∃ token f, tokens[i]? = some token ∧ FaultAt i token f ∧
      ∀ others, tokens.take (i + 1) <+: others → compile others = .error f := by
  obtain ⟨steps, hreads⟩ := h.exists_reads
  have hget : tokens[i]? = some (tokens.get ⟨i, h.inRange⟩) := List.getElem?_eq_getElem h.inRange
  have hsplit : tokens.take (i + 1) = tokens.take i ++ [tokens.get ⟨i, h.inRange⟩] :=
    List.take_succ_eq_append_getElem h.inRange
  have hlength : 0 + (tokens.take i).length = i := by
    rw [List.length_take, Nat.zero_add, Nat.min_eq_left (Nat.le_of_lt h.inRange)]
  cases hstep : step i (endDepth 0 steps) (tokens.get ⟨i, h.inRange⟩) with
  | ok s =>
    -- a token that is read would complete the row up to it
    obtain ⟨hm, hd, -⟩ := step_eq_ok_iff.mp hstep
    refine absurd (viable_of_reads (hreads.append (.cons hm hd (.nil _)))) ?_
    rw [← hsplit]
    exact h.unviable
  | error f =>
    refine ⟨_, f, hget, faultAt_of_step hstep, ?_⟩
    rintro others ⟨more, rfl⟩
    rw [hsplit, List.append_assoc, List.singleton_append]
    exact compile_of_scan_error (hreads.scan_append_error (by rwa [hlength]))

/-- Tokens of which no place is at fault are read. -/
theorem exists_reads_of_forall_not_firstUnviable {tokens : List String}
    (h : ∀ i, ¬ FirstUnviable tokens i) : ∃ steps, Reads 0 tokens steps := by
  have hviable : ∀ i, i < tokens.length → Viable (tokens.take (i + 1)) := by
    intro i
    induction i using Nat.strongRecOn with
    | ind i ih =>
      intro hi
      refine Classical.byContradiction fun hno => ?_
      exact h i ⟨hi, hno, fun j hj => ih j hj (Nat.lt_trans hj hi)⟩
  cases tokens with
  | nil => exact ⟨[], .nil 0⟩
  | cons token tokens =>
    have hall : Viable (token :: tokens) := by
      simpa using hviable tokens.length (Nat.lt_succ_self _)
    exact viable_iff_reads.mp hall

/-- A list that is refused has a token at fault, or it leaves a wrong number of values. -/
theorem faultAt_or_stackImbalance_of_compile {tokens : List String} {f : Fault}
    (h : compile tokens = .error f) :
    (∃ i token, FaultAt i token f) ∨ ∃ depth, f = .stackImbalance depth := by
  by_cases hfirst : ∃ i, FirstUnviable tokens i
  · obtain ⟨i, hi⟩ := hfirst
    obtain ⟨token, g, -, hfault, hall⟩ := hi.exists_fault
    obtain rfl : g = f := Except.error.inj ((hall tokens (List.take_prefix _ _)).symm.trans h)
    exact .inl ⟨i, token, hfault⟩
  · obtain ⟨steps, hreads⟩ := exists_reads_of_forall_not_firstUnviable (not_exists.mp hfirst)
    rw [compile_of_reads hreads] at h
    split at h
    · exact nomatch h
    · exact .inr ⟨_, (Except.error.inj h).symm⟩

/-- **The first fault wins.** If the tokens up to some place begin no program, then the token at
the first such place is at fault, and every list with the same tokens up to there is refused with
the same fault. Otherwise the tokens are a program, or they leave a wrong number of values and can
be completed to one. -/
theorem first_fault_wins (tokens : List String) :
    (∀ i, FirstUnviable tokens i → ∃ token f, tokens[i]? = some token ∧ FaultAt i token f ∧
        ∀ others, tokens.take (i + 1) <+: others → compile others = .error f) ∧
      ((¬ ∃ i, FirstUnviable tokens i) → (∃ p, compile tokens = .ok p) ∨
        (∃ depth, compile tokens = .error (.stackImbalance depth)) ∧ Viable tokens) := by
  refine ⟨fun i h => h.exists_fault, fun h => ?_⟩
  obtain ⟨steps, hreads⟩ := exists_reads_of_forall_not_firstUnviable (not_exists.mp h)
  rw [compile_of_reads hreads]
  by_cases hd : endDepth 0 steps = 1
  · exact .inl ⟨_, if_pos hd⟩
  · exact .inr ⟨⟨_, if_neg hd⟩, viable_of_reads hreads⟩

/-- An operator that comes too early is the first fault whatever follows, and two inputs in a row
have none. -/
theorem first_fault_wins_early_operator :
    (FirstUnviable ["p1", "add", "2x"] 1 ∧
        ∃ token f, ["p1", "add", "2x"][1]? = some token ∧ FaultAt 1 token f ∧
          ∀ others, ["p1", "add"] <+: others → compile others = .error f) ∧
      (¬ ∃ i, FirstUnviable ["p1", "p2"] i) ∧
        ((∃ p, compile ["p1", "p2"] = .ok p) ∨
          (∃ depth, compile ["p1", "p2"] = .error (.stackImbalance depth)) ∧
            Viable ["p1", "p2"]) := by
  have hone : Viable ["p1"] := ⟨[], _, rfl⟩
  have htwo : Viable ["p1", "p2"] := ⟨["add"], _, rfl⟩
  have hadd : ¬ Viable ["p1", "add"] := by
    rw [viable_iff_reads]
    rintro ⟨steps, hreads⟩
    exact nomatch (scan_eq_ok_iff 0).mpr hreads
  have hfirst : FirstUnviable ["p1", "add", "2x"] 1 := by
    refine ⟨by decide, hadd, fun j hj => ?_⟩
    obtain rfl : j = 0 := by omega
    exact hone
  have hnone : ¬ ∃ i, FirstUnviable ["p1", "p2"] i := by
    rintro ⟨i, h⟩
    match i, h with
    | 0, h => exact h.unviable hone
    | 1, h => exact h.unviable htwo
    | i + 2, h => exact absurd h.inRange (by simp)
  exact ⟨⟨hfirst, (first_fault_wins _).1 1 hfirst⟩, hnone, (first_fault_wins _).2 hnone⟩

end Program

end StackLang
