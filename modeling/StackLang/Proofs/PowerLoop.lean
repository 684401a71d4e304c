import Mathlib.Data.BitVec
import Mathlib.Data.Nat.Size
import StackLang.Proofs.StackMachine

/-!
# The loop of the power library

The function of the library squares its way through the bits of the exponent. A lap of the loop
keeps the product of the result so far and the power that is still to be taken, and it halves the
exponent; so the loop is left after as many laps as the exponent has bits, with the power of words
as its result.

No function is called and nothing traps, and the stack is empty at both ends of a lap. All that
counts is in the local variables: the base, the exponent and the result, in this order.

## Main definitions

* `Wasm.powerFunc` — the function of the library

## Main results

* `Wasm.iterate_powerLoop` — the loop ends with the power as its result, after as many laps as the
  exponent has bits and one more
* `Wasm.run_powerFunc_eq`, `Wasm.run_powerFunc` — the function computes powers, within 33 laps
-/

namespace StackLang

/-- The power of words in the ring of words. -/
theorem Expr.power_eq (base exponent : Word) :
    Expr.power base exponent = some (base ^ exponent.toNat) := by
  have hpow : ∀ n, BitVec.ofNat 32 (base.toNat ^ n) = base ^ n := by
    intro n
    induction n with
    | zero => rfl
    | succ n ih =>
      rw [pow_succ, pow_succ, BitVec.ofNat_mul, ih, BitVec.ofNat_toNat, BitVec.setWidth_eq]
  exact congrArg some (hpow exponent.toNat)

namespace Wasm

/-- Leave the loop when the exponent is zero. -/
def powerTest : List Op := [.localGet 1, .eqz, .brIf 1]

/-- Multiply the result by the base when the exponent is odd. -/
def powerMultiply : List Op :=
  [.localGet 1, .const 1, .word .and,
    .cond [.localGet 2, .localGet 0, .word .mul, .localSet 2] []]

/-- Square the base. -/
def powerSquare : List Op := [.localGet 0, .localGet 0, .word .mul, .localSet 0]

/-- Halve the exponent. -/
def powerHalve : List Op := [.localGet 1, .const 1, .word .shrU, .localSet 1]

/-- The body of the loop. -/
def powerLoop : List Op := powerTest ++ powerMultiply ++ powerSquare ++ powerHalve ++ [.br 0]

/-- The function of the library. -/
def powerFunc : Func where
  name := some "exponentiate"
  signature := ⟨2, 1⟩
  locals := 1
  body := [.const 1, .localSet 2, .block [.loop powerLoop], .localGet 2]

/-- The base, the exponent and the result so far, between two laps. -/
def powerState (base exponent result : Word) : State := ⟨[], [base, exponent, result]⟩

/-- The result after a lap. -/
def powerResult (base exponent result : Word) : Word :=
  if exponent &&& 1 = 0 then result else result * base

variable {callee? : Nat → Option Callee} {laps : Nat}

theorem execAll_powerTest (base exponent result : Word) :
    execAll callee? laps powerTest (powerState base exponent result) =
      if exponent = 0 then .jump 1 (powerState base exponent result)
      else .next (powerState base exponent result) := by
  by_cases h : exponent = 0
  · subst h
    rfl
  · simp only [powerTest, powerState, execAll, exec, List.getElem?_cons_succ,
      List.getElem?_cons_zero, if_neg h]
    rfl

theorem execAll_powerMultiply (base exponent result : Word) :
    execAll callee? laps powerMultiply (powerState base exponent result) =
      .next (powerState base exponent (powerResult base exponent result)) := by
  have hcond : execAll callee? laps powerMultiply (powerState base exponent result) =
      (if exponent &&& 1 = 0 then Outcome.next (powerState base exponent result)
        else .next (powerState base exponent (result * base))).andThen .next := by
    rfl
  rw [hcond, powerResult]
  split <;> rfl

/-- **One lap.** The loop is left when the exponent is zero, and otherwise starts anew with the base
squared and the exponent halved. -/
theorem execAll_powerLoop (base exponent result : Word) :
    execAll callee? laps powerLoop (powerState base exponent result) =
      if exponent = 0 then .jump 1 (powerState base exponent result)
      else .jump 0
        (powerState (base * base) (exponent >>> 1) (powerResult base exponent result)) := by
  have hsquare : ∀ result, execAll callee? laps powerSquare (powerState base exponent result) =
      .next (powerState (base * base) exponent result) := fun _ => rfl
  have hhalve : ∀ base result, execAll callee? laps powerHalve (powerState base exponent result) =
      .next (powerState base (exponent >>> 1) result) := fun _ _ => rfl
  simp only [powerLoop, execAll_append, execAll_powerTest]
  split
  · rfl
  · simp only [Outcome.andThen, execAll_powerMultiply, hsquare, hhalve]
    rfl

/-- **A lap keeps the product.** -/
theorem powerResult_mul_pow (base exponent result : Word) :
    powerResult base exponent result * (base * base) ^ (exponent >>> 1).toNat =
      result * base ^ exponent.toNat := by
  have hbit : (exponent &&& 1).toNat = exponent.toNat % 2 := by
    simp [BitVec.toNat_and, Nat.and_one_is_mod]
  have hhalf : (exponent >>> 1).toNat = exponent.toNat / 2 := by
    rw [BitVec.toNat_ushiftRight, Nat.shiftRight_eq_div_pow]
  have hsplit := Nat.div_add_mod exponent.toNat 2
  rw [powerResult, hhalf, ← pow_two, ← pow_mul]
  split
  · next h =>
    rw [h] at hbit
    rw [← hbit] at hsplit
    conv_rhs => rw [← hsplit]
    rfl
  · next h =>
    have hodd : exponent.toNat % 2 = 1 := by
      rcases Nat.mod_two_eq_zero_or_one exponent.toNat with heven | hodd
      · exact absurd (BitVec.eq_of_toNat_eq (y := 0) (hbit.trans heven)) h
      · exact hodd
    rw [hodd] at hsplit
    conv_rhs => rw [← hsplit]
    rw [pow_succ, mul_assoc, mul_comm base]

/-- Halving takes one bit away. -/
theorem size_half {exponent : Word} (h : exponent ≠ 0) :
    (exponent >>> 1).toNat.size + 1 = exponent.toNat.size := by
  have hhalf : (exponent >>> 1).toNat = exponent.toNat / 2 := by
    rw [BitVec.toNat_ushiftRight, Nat.shiftRight_eq_div_pow]
  have hpos : 0 < exponent.toNat := Nat.pos_of_ne_zero fun hzero => h (BitVec.eq_of_toNat_eq hzero)
  obtain ⟨bits, hbits⟩ := Nat.exists_eq_add_one_of_ne_zero (Nat.size_pos.mpr hpos).ne'
  rw [hhalf, hbits]
  refine congrArg (· + 1) (Nat.le_antisymm (Nat.size_le.mpr ?_) (Nat.le_of_lt_succ ?_))
  · have hlt := Nat.size_le.mp (Nat.le_of_eq hbits)
    omega
  · refine Nat.lt_of_lt_of_le (Nat.lt_of_lt_of_eq (Nat.lt_succ_self bits) hbits.symm) ?_
    refine Nat.size_le.mpr ?_
    have hlt := Nat.lt_size_self (exponent.toNat / 2)
    omega

/-- **The loop computes powers, and ends.** It goes around once for each bit of the exponent and
once more to find that none is left; no smaller budget is enough. -/
theorem iterate_powerLoop (callee? : Nat → Option Callee) (laps count : Nat)
    (base exponent result : Word) :
    iterate (fun s => execAll callee? laps powerLoop s) count (powerState base exponent result) =
      if exponent.toNat.size < count then
        .jump 0 (powerState (base ^ 2 ^ exponent.toNat.size) 0 (result * base ^ exponent.toNat))
      else .endless := by
  induction count generalizing base exponent result with
  | zero => rfl
  | succ count ih =>
    rw [iterate, execAll_powerLoop]
    by_cases hzero : exponent = 0
    · subst hzero
      simp
    · have hsquares : ∀ k, (base * base) ^ 2 ^ k = base ^ 2 ^ (k + 1) := by
        intro k
        rw [← pow_two, ← pow_mul, ← pow_succ']
      have hnext := ih (base * base) (exponent >>> 1) (powerResult base exponent result)
      rw [powerResult_mul_pow, hsquares] at hnext
      rw [if_neg hzero, ← size_half hzero]
      simp only [Nat.add_lt_add_iff_right]
      exact hnext

/-- **The function of the library computes powers** when its budget allows for the bits of the
exponent and one lap more, and it runs out of its budget otherwise. -/
theorem run_powerFunc_eq (callee? : Nat → Option Callee) (laps index : Nat) (base exponent : Word) :
    powerFunc.run callee? laps index [base, exponent] =
      if exponent.toNat.size < laps then .values [base ^ exponent.toNat] else .endless := by
  have hloop := iterate_powerLoop callee? laps laps base exponent 1
  rw [one_mul] at hloop
  have hbody : execAll callee? laps powerFunc.body ⟨[], [base, exponent] ++ [0]⟩ =
      ((leave (powerState base exponent 1)
        ((iterate (fun s => execAll callee? laps powerLoop s) laps
          (powerState base exponent 1)).andThen .next)).andThen
            fun s => (exec callee? laps (.localGet 2) s).andThen .next) := by
    simp only [powerFunc, execAll_cons]
    rfl
  have hlocals : List.replicate powerFunc.locals (0 : Word) = [0] := rfl
  rw [hloop] at hbody
  by_cases hlaps : exponent.toNat.size < laps
  · rw [if_pos hlaps] at hbody ⊢
    simp only [Func.run, hlocals, hbody]
    rfl
  · rw [if_neg hlaps] at hbody ⊢
    simp only [Func.run, hlocals, hbody]
    rfl

/-- An exponent has no more than 32 bits. -/
theorem run_powerFunc (hlaps : 32 < laps) (index : Nat) (base exponent : Word) :
    powerFunc.run callee? laps index [base, exponent] = .values [base ^ exponent.toNat] := by
  have hsize : exponent.toNat.size ≤ 32 := Nat.size_le.mpr exponent.isLt
  rw [run_powerFunc_eq, if_pos (Nat.lt_of_le_of_lt hsize hlaps)]

end Wasm

end StackLang
