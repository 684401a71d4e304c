import StackLang.Proofs.PowerLibrary
import StackLang.Wasm.Linking

/-!
# Linked programs

A program that was compiled can be linked. Its text is read back as a module, the power function is
there with the type that the module asks for, and the module exports what is looked for. What comes
of linking is a function of two words, and that function is the tree of the program.

The budget of the machine is never used up. Instructions of programs have no loops, the loop of the
library needs no more than 33 laps, and calls are two deep at most; so all that is ever used of the
budget is that it is not smaller than that.

## Main results

* `Wasm.exists_libraryDefinitions` — the library gives programs the power function
* `Wasm.exponentiate_ends_with_power` — the library computes powers and always ends
* `Wasm.exists_link` — a compiled program is linked and computes its tree
* `Wasm.Callee.Computes.call` — calling a function of two words
-/

namespace StackLang

namespace Wasm

/-! ## Functions of an instance -/

theorem Instance.callee?_imported (inst : Instance) (depth : Nat) {i : Nat}
    (h : i < inst.imported.length) : inst.callee? depth i = inst.imported[i]? := by
  cases depth <;> rw [Instance.callee?, if_pos h]

theorem Instance.callee?_own (inst : Instance) (depth k : Nat) {f : Func}
    (h : inst.code.funcs[k]? = some f) :
    inst.callee? (depth + 1) (inst.imported.length + k) =
      some ⟨f.signature, fun args =>
        f.run (inst.callee? depth) (depth + 1) (inst.imported.length + k) args⟩ := by
  rw [Instance.callee?, if_neg (Nat.not_lt.mpr (Nat.le_add_right _ k)), Nat.add_sub_cancel_left, h]
  rfl

/-- The budget, as far as it matters. -/
theorem exists_budget : ∃ depth, budget = depth + 1 ∧ 32 < depth + 1 :=
  ⟨4294967295, rfl, by decide⟩

/-- A function that is exported is what its code computes with a budget for the library. -/
theorem Instance.exists_exported (inst : Instance) (name : String) {k : Nat} {f : Func}
    {g : Word → Word → Except Trap Word}
    (hexport : inst.code.exports.lookup name = some (inst.imported.length + k))
    (hf : inst.code.funcs[k]? = some f) (hsignature : f.signature = ⟨2, 1⟩)
    (hrun : ∀ depth, 32 < depth + 1 → ∀ x y,
      f.run (inst.callee? depth) (depth + 1) (inst.imported.length + k) [x, y] = .ofWord (g x y)) :
    ∃ c, inst.exported name = .ok c ∧ c.Computes g := by
  obtain ⟨depth, hbudget, hdepth⟩ := exists_budget
  have hexported : inst.export? name = inst.callee? budget (inst.imported.length + k) := by
    rw [Instance.export?, hexport]
    rfl
  rw [hbudget, inst.callee?_own depth k hf] at hexported
  rw [Instance.exported, hexported]
  exact ⟨_, rfl, hsignature, hrun depth hdepth⟩

/-! ## The library -/

/-- The power function, which never traps. -/
def power (x y : Word) : Except Trap Word := .ok (x ^ y.toNat)

theorem toOption_power : (fun x y => (power x y).toOption) = Expr.power := by
  funext x y
  rw [Expr.power_eq]
  rfl

theorem instantiateBytes_powerLibrary :
    instantiateBytes [] (Text.encode powerLibrary) = .ok ⟨[], powerModule⟩ := by
  rw [instantiateBytes, Module.ofBytes_powerLibrary]
  rfl

/-- What the library exports computes powers. -/
theorem exists_exponentiate :
    ∃ c, Instance.exported ⟨[], powerModule⟩ "exponentiate" = .ok c ∧ c.Computes power :=
  Instance.exists_exported ⟨[], powerModule⟩ "exponentiate" (k := 0) (f := powerFunc) rfl rfl rfl
    fun _ hdepth x y => run_powerFunc hdepth 0 x y

/-- **The library gives programs the power function.** -/
theorem exists_libraryDefinitions :
    ∃ c : Callee, libraryDefinitions (Text.encode powerLibrary) = .ok [⟨"stdlib", "pow", c⟩] ∧
      c.Computes power := by
  obtain ⟨c, hc, hpower⟩ := exists_exponentiate
  refine ⟨c, ?_, hpower⟩
  rw [libraryDefinitions, bind_eq_ok_iff]
  refine ⟨_, instantiateBytes_powerLibrary, ?_⟩
  rw [libraryExports, List.mapM_cons]
  exact bind_eq_ok_iff.mpr ⟨_, bind_eq_ok_iff.mpr ⟨c, hc, rfl⟩, rfl⟩

theorem toNat_pow (base : Word) (n : Nat) : (base ^ n).toNat = base.toNat ^ n % 2 ^ 32 := by
  induction n with
  | zero => rfl
  | succ n ih => rw [pow_succ, BitVec.toNat_mul, ih, Nat.mod_mul_mod, ← pow_succ]

/-- **The library raises words to powers, and always comes to an end.** Its text is read as a module
with one function. For every base and every exponent, the loop of the function goes around as often
as the exponent has bits and once more, and gives the base to the power of the exponent modulo
`2 ^ 32`, both read as unsigned; a budget of fewer laps is used up. The machine has laps enough for
all exponents, so what the library exports is the power of words. -/
theorem exponentiate_ends_with_power :
    ∃ (inst : Instance) (f : Func) (c : Callee),
      instantiateBytes [] (Text.encode powerLibrary) = .ok inst ∧ inst.code.funcs = [f] ∧
        inst.exported "exponentiate" = .ok c ∧ c.signature = ⟨2, 1⟩ ∧
        (∀ base exponent : Word, ∃ w : Word, c.run [base, exponent] = .values [w] ∧
          w.toNat = base.toNat ^ exponent.toNat % 2 ^ 32 ∧
          ∀ callee? laps index, f.run callee? laps index [base, exponent] =
            if exponent.toNat.size < laps then .values [w] else .endless) ∧
        ∀ base : Word, c.run [base, 0] = .values [1] := by
  obtain ⟨c, hc, hpower⟩ := exists_exponentiate
  refine ⟨_, powerFunc, c, instantiateBytes_powerLibrary, rfl, hc, hpower.signature, ?_, ?_⟩
  · intro base exponent
    refine ⟨base ^ exponent.toNat, hpower.run base exponent, toNat_pow base _, ?_⟩
    exact fun callee? laps index => run_powerFunc_eq callee? laps index base exponent
  · intro base
    exact hpower.run base 0

/-! ## Programs -/

/-- The function of a tree gives the value of the tree or traps inside this function. -/
theorem run_programFunc {callee? : Nat → Option Callee} {f : Word → Word → Except Trap Word}
    {e : Expr} (hcall : .call "pow" ∈ e.instrs → ∃ c, callee? 0 = some c ∧ c.Computes f)
    (laps index : Nat) (x y : Word) :
    (programFunc e.instrs).run callee? laps index [x, y] =
      .ofWord ((e.outcome f x y).mapError (·.within index (programFunc e.instrs))) := by
  have hbody : execAll callee? laps (programFunc e.instrs).body ⟨[], [x, y] ++ []⟩ =
      .ofWord ⟨[], [x, y]⟩ (e.outcome f x y) := execAll_instrs (fun h => hcall h) x y []
  have hlocals : List.replicate (programFunc e.instrs).locals (0 : Word) = [] := rfl
  simp only [Func.run, hlocals, hbody]
  cases e.outcome f x y <;> rfl

theorem resolveImport_power {c : Callee} (h : c.signature = ⟨2, 1⟩) :
    resolveImport [⟨"stdlib", "pow", c⟩] ⟨"stdlib", "pow", ⟨2, 1⟩⟩ = .ok c := by
  simp [resolveImport, h]

/-- The module of a tree becomes an instance when the functions it imports are defined. -/
theorem instantiate_programModule {usesPower : Bool} {defs : List Definition} {c : Callee}
    (hdefs : usesPower = true → defs = [⟨"stdlib", "pow", c⟩]) (hc : c.signature = ⟨2, 1⟩)
    (instrs : List Instr) :
    instantiate defs (programModule usesPower instrs) =
      .ok ⟨List.replicate usesPower.toNat c, programModule usesPower instrs⟩ := by
  rw [instantiate, bind_eq_ok_iff]
  cases usesPower with
  | false => exact ⟨[], rfl, rfl⟩
  | true =>
    refine ⟨[c], ?_, rfl⟩
    rw [hdefs rfl]
    exact bind_eq_ok_iff.mpr ⟨c, resolveImport_power hc, rfl⟩

/-- What the tree of a program computes once it is linked: its value, or a trap inside the function
of the program. -/
def linkedOutcome (usesPower : Bool) (e : Expr) (x y : Word) : Except Trap Word :=
  (e.outcome power x y).mapError (·.within usesPower.toNat (programFunc e.instrs))

theorem toOption_linkedOutcome (usesPower : Bool) (e : Expr) (x y : Word) :
    (linkedOutcome usesPower e x y).toOption = e.value? Expr.power x y := by
  rw [← toOption_power, ← Expr.toOption_outcome, linkedOutcome]
  cases e.outcome power x y <;> rfl

/-- **A compiled program is linked**, with the library if it needs one, and computes its tree. -/
theorem exists_link {tokens : List String} {p : Program} (h : Program.compile tokens = .ok p)
    {e : Expr} (he : e.tokens = tokens) :
    ∃ c, link (Text.encode p.text)
        (if p.needsLibrary then some (Text.encode powerLibrary) else none) = .ok c ∧
      c.Computes (linkedOutcome p.needsLibrary e) := by
  obtain ⟨lib, hlib, hpower⟩ := exists_libraryDefinitions
  have hinstrs := Program.instrs_of_compile h he
  have hneeds := Program.needsLibrary_iff h
  have hbytes := Module.ofBytes_compile h
  rw [hinstrs] at hneeds hbytes
  generalize p.needsLibrary = usesPower at hneeds hbytes ⊢
  let inst : Instance := ⟨List.replicate usesPower.toNat lib, programModule usesPower e.instrs⟩
  have hinst : ∀ defs, (usesPower = true → defs = [⟨"stdlib", "pow", lib⟩]) →
      instantiateBytes defs (Text.encode p.text) = .ok inst := by
    intro defs hdefs
    rw [instantiateBytes, hbytes]
    exact instantiate_programModule hdefs hpower.signature e.instrs
  have hcall : ∀ depth, .call "pow" ∈ e.instrs →
      ∃ c, inst.callee? depth 0 = some c ∧ c.Computes power := by
    intro depth hmem
    obtain rfl : usesPower = true := hneeds.mpr hmem
    exact ⟨lib, inst.callee?_imported depth Nat.one_pos, hpower⟩
  have hlength : inst.imported.length + 0 = usesPower.toNat := List.length_replicate
  obtain ⟨c, hc, hcomputes⟩ := inst.exists_exported "compute" (k := 0)
    (f := programFunc e.instrs) (g := linkedOutcome usesPower e)
    (by rw [hlength]; rfl) rfl rfl
    (fun depth _ x y => by rw [hlength]; exact run_programFunc (hcall depth) _ _ x y)
  refine ⟨c, ?_, hcomputes⟩
  cases usesPower with
  | false =>
    exact bind_eq_ok_iff.mpr ⟨[], rfl, bind_eq_ok_iff.mpr ⟨inst, hinst [] nofun, hc⟩⟩
  | true =>
    exact bind_eq_ok_iff.mpr ⟨_, hlib, bind_eq_ok_iff.mpr ⟨inst, hinst _ fun _ => rfl, hc⟩⟩

/-- Calling a function of two words. -/
theorem Callee.Computes.call {c : Callee} {f : Word → Word → Except Trap Word} (h : c.Computes f)
    (inputs : Int × Int) :
    Wasm.call c inputs =
      match f (Word.ofInteger inputs.1) (Word.ofInteger inputs.2) with
      | .ok w => .ok (some w.toSigned)
      | .error t => .error (.trap t) := by
  rw [Wasm.call, h.signature, h.run]
  cases f (Word.ofInteger inputs.1) (Word.ofInteger inputs.2) <;> rfl

end Wasm

end StackLang
