import StackLang.Proofs.Balance
import StackLang.Proofs.Linking

/-!
# Depths and stacks

The compiler writes down how many values lie on the stack after each instruction, and it does so
without running anything. This file shows that the numbers are right: a run of the compiled code on
any two inputs that gets past an instruction has as many values on its stack as were written down
for it. The run may end before, by a trap or in a function of the library, but never because a
value was missing.

The code is taken from the module text and linked with any library. Nothing needs to be known about
what the library computes. What matters is that a function gives as many words as its signature
says, and every function of an instance does, since this is looked at when it returns.

## Main definitions

* `Wasm.Callee.Typed` — functions that give as many words as they say
* `Wasm.Outcome.Reaches` — a run that comes to a stack of some depth, unless it is cut short

## Main results

* `Wasm.typed_of_libraryDefinitions` — the functions of every library are typed
* `Wasm.exec_reaches` — one instruction changes the stack as it says
* `Program.Reads.execAll_reaches` — and so does a row of them
* `Program.depths_exact` — the depths of a compiled program
-/

namespace StackLang

/-- A row of work that is done has one result for each piece, and every result is one of a
piece. -/
theorem of_mapM_eq_ok {ε α β : Type} {f : α → Except ε β} {xs : List α} {ys : List β}
    (h : xs.mapM f = .ok ys) : ys.length = xs.length ∧ ∀ y ∈ ys, ∃ x ∈ xs, f x = .ok y := by
  induction xs generalizing ys with
  | nil =>
    obtain rfl : [] = ys := Except.ok.inj h
    exact ⟨rfl, fun y hy => absurd hy List.not_mem_nil⟩
  | cons x xs ih =>
    rw [List.mapM_cons] at h
    obtain ⟨y, hy, h⟩ := bind_eq_ok_iff.mp h
    obtain ⟨rest, hrest, h⟩ := bind_eq_ok_iff.mp h
    obtain rfl : y :: rest = ys := Except.ok.inj h
    obtain ⟨hlength, hmem⟩ := ih hrest
    refine ⟨by simp [hlength], fun z hz => ?_⟩
    rcases List.mem_cons.mp hz with rfl | hz
    · exact ⟨x, List.mem_cons_self, hy⟩
    · obtain ⟨x', hx', hz⟩ := hmem z hz
      exact ⟨x', List.mem_cons_of_mem x hx', hz⟩

namespace Wasm

/-! ## Functions that give as many words as they say -/

/-- Whenever the function gives words, there are as many as its signature says. -/
def Callee.Typed (c : Callee) : Prop :=
  ∀ args ws, c.run args = .values ws → ws.length = c.signature.results

theorem Func.length_of_run {f : Func} {callee? : Nat → Option Callee} {laps index : Nat}
    {args ws : List Word} (h : f.run callee? laps index args = .values ws) :
    ws.length = f.signature.results := by
  simp only [Func.run] at h
  split at h
  · split at h
    · next hlength =>
      obtain rfl := Result.values.inj h
      rw [List.length_reverse, hlength]
    · cases h
  · split at h
    · next hlength =>
      obtain rfl := Result.values.inj h
      rw [List.length_reverse, List.length_take, Nat.min_eq_left hlength]
    · cases h
  all_goals cases h

/-- An instance has typed functions if those that it imports are typed. -/
theorem Instance.typed_of_callee? {inst : Instance} (h : ∀ c ∈ inst.imported, c.Typed)
    {depth i : Nat} {c : Callee} (hc : inst.callee? depth i = some c) : c.Typed := by
  cases depth with
  | zero =>
    rw [Instance.callee?] at hc
    split at hc
    · exact h c (List.mem_of_getElem? hc)
    · obtain ⟨f, -, rfl⟩ := Option.map_eq_some_iff.mp hc
      intro args ws hrun
      cases hrun
  | succ depth =>
    rw [Instance.callee?] at hc
    split at hc
    · exact h c (List.mem_of_getElem? hc)
    · obtain ⟨f, -, rfl⟩ := Option.map_eq_some_iff.mp hc
      exact fun args ws hrun => Func.length_of_run hrun

/-- What is found for an import is a definition with the signature that was asked for. -/
theorem of_resolveImport {defs : List Definition} {i : Import} {c : Callee}
    (h : resolveImport defs i = .ok c) :
    c.signature = i.signature ∧ ∃ d ∈ defs, d.callee = c := by
  rw [resolveImport] at h
  split at h
  · cases h
  · next d hfind =>
    split at h
    · next hsignature =>
      obtain rfl := Except.ok.inj h
      exact ⟨hsignature, d, List.mem_of_find?_eq_some hfind, rfl⟩
    · cases h

/-- The instance of a module has one function for each import, with the signature that was asked
for. -/
theorem of_instantiateBytes {defs : List Definition} {bs : Bytes} {inst : Instance}
    (h : instantiateBytes defs bs = .ok inst) :
    Module.ofBytes bs = .ok inst.code ∧ inst.imported.length = inst.code.imports.length ∧
      ∀ c ∈ inst.imported, (∃ i ∈ inst.code.imports, c.signature = i.signature) ∧
        ∃ d ∈ defs, d.callee = c := by
  rw [instantiateBytes] at h
  split at h
  · next m hm =>
    obtain ⟨imported, himported, h⟩ := bind_eq_ok_iff.mp h
    obtain ⟨-, -, h⟩ := bind_eq_ok_iff.mp h
    obtain rfl : ⟨imported, m⟩ = inst := Except.ok.inj h
    obtain ⟨hlength, hmem⟩ := of_mapM_eq_ok himported
    refine ⟨hm, hlength, fun c hc => ?_⟩
    obtain ⟨i, hi, hresolved⟩ := hmem c hc
    obtain ⟨hsignature, hdefined⟩ := of_resolveImport hresolved
    exact ⟨⟨i, hi, hsignature⟩, hdefined⟩
  · cases h

/-- **The functions of every library are typed.** A library imports nothing, so all of them are its
own. -/
theorem typed_of_libraryDefinitions {library : Bytes} {defs : List Definition}
    (h : libraryDefinitions library = .ok defs) : ∀ d ∈ defs, d.callee.Typed := by
  obtain ⟨inst, hinst, h⟩ := bind_eq_ok_iff.mp h
  have himported : ∀ c ∈ inst.imported, c.Typed := by
    intro c hc
    obtain ⟨-, d, hd, -⟩ := (of_instantiateBytes hinst).2.2 c hc
    exact absurd hd List.not_mem_nil
  intro d hd
  obtain ⟨⟨name, exported⟩, -, hdefinition⟩ := (of_mapM_eq_ok h).2 d hd
  obtain ⟨c, hc, hdefinition⟩ := bind_eq_ok_iff.mp hdefinition
  obtain rfl := Except.ok.inj hdefinition
  rw [Instance.exported] at hc
  split at hc
  · next c' hexport =>
    obtain rfl := Except.ok.inj hc
    obtain ⟨index, -, hindex⟩ := Option.bind_eq_some_iff.mp hexport
    exact Instance.typed_of_callee? himported hindex
  · cases hc

/-! ## Runs that never lack a value -/

/-- The run came to a stack of this depth with the local variables as they were, or it trapped, or
one of the functions that it called came to no result. -/
inductive Outcome.Reaches (callees : List Callee) (locals : List Word) (depth : Int) :
    Outcome → Prop
  | next {s : State} (hdepth : (s.stack.length : Int) = depth) (hlocals : s.locals = locals) :
    Reaches callees locals depth (.next s)
  | trap (t : Trap) : Reaches callees locals depth (.trap t)
  | stuck {c : Callee} {args : List Word} (hc : c ∈ callees) (h : c.run args = .stuck) :
    Reaches callees locals depth .stuck
  | endless {c : Callee} {args : List Word} (hc : c ∈ callees) (h : c.run args = .endless) :
    Reaches callees locals depth .endless

section

variable {callees : List Callee} {callee? : Nat → Option Callee} {laps : Nat}
  {funcIndex : String → Nat} {a b : Word}

theorem Outcome.Reaches.andThen {locals : List Word} {d d' : Int} {o : Outcome}
    {k : State → Outcome} (h : o.Reaches callees locals d)
    (hk : ∀ s : State, (s.stack.length : Int) = d → s.locals = locals →
      (k s).Reaches callees locals d') :
    (o.andThen k).Reaches callees locals d' := by
  cases h with
  | next hdepth hlocals => exact hk _ hdepth hlocals
  | trap t => exact .trap t
  | stuck hc h => exact .stuck hc h
  | endless hc h => exact .endless hc h

/-- What it means to come to a stack of some depth. -/
theorem Outcome.Reaches.spec {locals : List Word} {d : Int} {o : Outcome}
    (h : o.Reaches callees locals d) :
    (∀ s, o = .next s → (s.stack.length : Int) = d) ∧
      ((∃ s, o = .next s) ∨ (∃ t, o = .trap t) ∨
        ∃ c ∈ callees, ∃ args, c.run args = .stuck ∨ c.run args = .endless) := by
  cases h with
  | next hdepth _ =>
    refine ⟨fun s hs => ?_, .inl ⟨_, rfl⟩⟩
    rwa [← Outcome.next.inj hs]
  | trap t => exact ⟨by simp, .inr (.inl ⟨t, rfl⟩)⟩
  | stuck hc h => exact ⟨by simp, .inr (.inr ⟨_, hc, _, .inl h⟩)⟩
  | endless hc h => exact ⟨by simp, .inr (.inr ⟨_, hc, _, .inr h⟩)⟩

/-- A call of a typed function of two words. -/
theorem callWith_reaches {c : Callee} (hc : c ∈ callees) (hsignature : c.signature = ⟨2, 1⟩)
    (htyped : c.Typed) (x y : Word) (stack locals : List Word) :
    (callWith c ⟨y :: x :: stack, locals⟩).Reaches callees locals (stack.length + 1 : Int) := by
  have hstack : ¬ (y :: x :: stack).length < 2 := by simp
  simp only [callWith, hsignature, hstack, if_false]
  split
  · next ws hrun =>
    have hlength : ws.length = 1 := by rw [htyped _ ws hrun, hsignature]
    refine .next ?_ rfl
    simp [hlength]
    omega
  · exact .trap _
  · next hrun => exact .stuck hc hrun
  · next hrun => exact .endless hc hrun

/-- **One instruction changes the stack as it says.** -/
theorem exec_reaches {i : Instr} (hi : i.IsLinkable)
    (hcall : i = .call "pow" → ∃ c ∈ callees, callee? (funcIndex "pow") = some c ∧
      c.signature = ⟨2, 1⟩ ∧ c.Typed)
    {s : State} (hlocals : s.locals = [a, b]) (hpops : i.pops ≤ s.stack.length) :
    (exec callee? laps (ofInstr funcIndex i) s).Reaches callees [a, b]
      ((s.stack.length : Int) - i.pops + i.pushes) := by
  obtain ⟨stack, locals⟩ := s
  obtain rfl : locals = [a, b] := hlocals
  -- an instruction that takes two values finds them on top
  have htop : i.pops = 2 → ∃ y x rest, stack = y :: x :: rest := by
    intro htwo
    match stack, htwo ▸ hpops with
    | y :: x :: rest, _ => exact ⟨y, x, rest, rfl⟩
  cases i with
  | load p => cases p <;> exact .next (by simp [Instr.pops, Instr.pushes]) rfl
  | push n => exact .next (by simp [Instr.pops, Instr.pushes]) rfl
  | arith op =>
    obtain ⟨y, x, rest, rfl⟩ := htop rfl
    simp only [ofInstr, exec]
    split
    · exact .next (by simp [Instr.pops, Instr.pushes]; omega) rfl
    · exact .trap _
  | call name =>
    obtain rfl : name = "pow" := hi name rfl
    obtain ⟨y, x, rest, rfl⟩ := htop rfl
    obtain ⟨c, hc, hfound, hsignature, htyped⟩ := hcall rfl
    have hdepth : (((y :: x :: rest).length : Int) - (Instr.call "pow").pops +
        (Instr.call "pow").pushes) = (rest.length + 1 : Int) := by
      simp [Instr.pops, Instr.pushes]
      omega
    rw [hdepth, ofInstr, exec, hfound]
    exact callWith_reaches hc hsignature htyped x y rest [a, b]

end

end Wasm

namespace Program

open Wasm (Callee Definition Instance State execAll instantiateBytes libraryDefinitions ofInstr)

/-- **A row of instructions changes the stack as was counted.** -/
theorem Reads.execAll_reaches {callees : List Callee} {callee? : Nat → Option Callee} {laps : Nat}
    {funcIndex : String → Nat} {depth : Int} {tokens : List String} {steps : List (Instr × Int)}
    (h : Reads depth tokens steps)
    (hcall : .call "pow" ∈ steps.map (·.1) → ∃ c ∈ callees, callee? (funcIndex "pow") = some c ∧
      c.signature = ⟨2, 1⟩ ∧ c.Typed)
    {a b : Word} {s : State} (hlocals : s.locals = [a, b])
    (hdepth : (s.stack.length : Int) = depth) :
    (execAll callee? laps ((steps.map (·.1)).map (ofInstr funcIndex)) s).Reaches callees [a, b]
      (endDepth depth steps) := by
  have hlinkable := h.isLinkable
  induction h generalizing s with
  | nil depth => exact .next hdepth hlocals
  | @cons depth token i tokens steps _ hd _ ih =>
    rw [List.map_cons, List.map_cons, Wasm.execAll_cons, endDepth_cons]
    rw [List.map_cons] at hcall hlinkable
    have hfirst : (Wasm.exec callee? laps (ofInstr funcIndex i) s).Reaches callees [a, b]
        ((s.stack.length : Int) - i.pops + i.pushes) :=
      Wasm.exec_reaches (hlinkable i List.mem_cons_self)
        (fun hi => hcall (hi ▸ List.mem_cons_self)) hlocals (by omega)
    rw [hdepth] at hfirst
    refine hfirst.andThen fun t ht htlocals => ?_
    exact ih (fun hmem => hcall (List.mem_cons_of_mem i hmem)) htlocals ht
      fun j hj => hlinkable j (List.mem_cons_of_mem i hj)

/-- The code of a compiled program, linked with a library or with nothing. -/
theorem linked_of_instantiateBytes {tokens : List String} {p : Program}
    (h : compile tokens = .ok p) {defs : List Definition} {inst : Instance}
    (hdefs : defs = [] ∨ ∃ library, libraryDefinitions library = .ok defs)
    (hinst : instantiateBytes defs (Text.encode p.text) = .ok inst) :
    inst.code.funcs = [Wasm.programFunc p.instrs] ∧ ∀ depth, .call "pow" ∈ p.instrs →
      ∃ c ∈ inst.imported, inst.callee? depth 0 = some c ∧ c.signature = ⟨2, 1⟩ ∧ c.Typed := by
  obtain ⟨hbytes, hlength, himported⟩ := Wasm.of_instantiateBytes hinst
  rw [Wasm.Module.ofBytes_compile h] at hbytes
  rw [← Except.ok.inj hbytes] at hlength himported
  refine ⟨by rw [← Except.ok.inj hbytes]; rfl, fun depth hmem => ?_⟩
  rw [(needsLibrary_iff h).mpr hmem] at hlength himported
  have hlt : 0 < inst.imported.length := by
    rw [hlength]
    exact Nat.one_pos
  have hc := List.getElem_mem hlt
  refine ⟨_, hc, ?_, ?_⟩
  · rw [inst.callee?_imported depth hlt, List.getElem?_eq_getElem hlt]
  · obtain ⟨⟨i, hi, hsignature⟩, d, hd, hcallee⟩ := himported _ hc
    obtain rfl : i = ⟨"stdlib", "pow", ⟨2, 1⟩⟩ := List.mem_singleton.mp hi
    refine ⟨hsignature, ?_⟩
    rcases hdefs with rfl | ⟨library, hlibrary⟩
    · exact absurd hd List.not_mem_nil
    · exact hcallee ▸ Wasm.typed_of_libraryDefinitions hlibrary d hd

/-- The depth at place `k` is the one that the first `k + 1` tokens lead to. -/
theorem Reads.endDepth_of_getElem? {tokens : List String} {steps : List (Instr × Int)}
    (h : Reads 0 tokens steps) {k : Nat} {d : Int} (hk : (steps.map (·.2))[k]? = some d) :
    endDepth 0 (steps.take (k + 1)) = d ∧ tokens.take (k + 1) ≠ [] := by
  rw [List.getElem?_map, Option.map_eq_some_iff] at hk
  obtain ⟨s, hs, rfl⟩ := hk
  refine ⟨endDepth_take hs, List.ne_nil_of_length_pos ?_⟩
  have hlt := (List.getElem?_eq_some_iff.mp hs).1
  have hlength := h.length_eq
  rw [List.length_take]
  omega

theorem getLast?_of_endDepth {steps : List (Instr × Int)} (h : endDepth 0 steps = 1) :
    (steps.map (·.2)).getLast? = some 1 := by
  rw [endDepth, List.getLastD_eq_getLast?] at h
  cases hlast : (steps.map (·.2)).getLast? with
  | none =>
    rw [hlast] at h
    cases h
  | some d =>
    rw [hlast] at h
    exact congrArg some h

/-- The linked code of a program, up to the instruction at place `k`. -/
theorem run_reaches {tokens : List String} {p : Program} (h : compile tokens = .ok p)
    {defs : List Definition} {inst : Instance}
    (hdefs : defs = [] ∨ ∃ library, libraryDefinitions library = .ok defs)
    (hinst : instantiateBytes defs (Text.encode p.text) = .ok inst) (depth laps : Nat) (a b : Word)
    {k : Nat} {d : Int} (hk : p.depths[k]? = some d) :
    (execAll (inst.callee? depth) laps ((Wasm.programFunc p.instrs).body.take (k + 1))
      ⟨[], [a, b]⟩).Reaches inst.imported [a, b] d := by
  have hcall := (linked_of_instantiateBytes h hdefs hinst).2 depth
  obtain ⟨steps, hreads, -, rfl⟩ := compile_eq_ok_iff.mp h
  have hbody : (Wasm.programFunc (ofSteps tokens steps).instrs).body.take (k + 1) =
      ((steps.take (k + 1)).map (·.1)).map (ofInstr fun _ => 0) := by
    simp [Wasm.programFunc, ofSteps, List.map_take]
  rw [hbody, ← (hreads.endDepth_of_getElem? hk).1]
  refine (hreads.take (k + 1)).execAll_reaches (fun hmem => hcall ?_) rfl rfl
  rw [List.map_take] at hmem
  exact List.mem_of_mem_take hmem

/-- **The depths of a compiled program.** There is one for each token. It is the number of tokens
that push less the number of tokens that consume, up to that token; two in a row differ by one, all
are positive, and the last one is one.

They are the depths of the stack. Let the text of the program be linked with any library, or with
nothing if that is enough, and let its code run on any two words. If the run gets past the
instruction at place `k`, the stack holds as many values as the depth at place `k` says. If it does
not, it has trapped, or a library function came to no result; a value is never missing. -/
theorem depths_exact {tokens : List String} {p : Program} (h : compile tokens = .ok p) :
    p.depths.length = tokens.length ∧
      (∀ k d, p.depths[k]? = some d → d = balance (tokens.take (k + 1)) ∧ 1 ≤ d) ∧
      p.depths.IsChain (fun d d' => (d' - d).natAbs = 1) ∧ p.depths.getLast? = some 1 ∧
      ∀ defs inst, (defs = [] ∨ ∃ library, libraryDefinitions library = .ok defs) →
        instantiateBytes defs (Text.encode p.text) = .ok inst →
        ∃ f, inst.code.funcs = [f] ∧ f.body.length = tokens.length ∧
          ∀ (depth laps : Nat) (a b : Word) (k : Nat) (d : Int), p.depths[k]? = some d →
            let ended := execAll (inst.callee? depth) laps (f.body.take (k + 1)) ⟨[], [a, b]⟩
            (∀ s, ended = .next s → (s.stack.length : Int) = d) ∧
              ((∃ s, ended = .next s) ∨ (∃ t, ended = .trap t) ∨
                ∃ c ∈ inst.imported, ∃ args, c.run args = .stuck ∨ c.run args = .endless) := by
  have hrun := fun defs inst => @run_reaches tokens p h defs inst
  have hlinked := fun defs inst => @linked_of_instantiateBytes tokens p h defs inst
  obtain ⟨steps, hreads, hd, rfl⟩ := compile_eq_ok_iff.mp h
  have hlength := hreads.length_eq
  refine ⟨by rw [ofSteps, List.length_map, hlength], fun k d hk => ?_, hreads.isChain.tail,
    getLast?_of_endDepth hd, fun defs inst hdefs hinst => ?_⟩
  · obtain ⟨hend, hne⟩ := hreads.endDepth_of_getElem? hk
    have htake := hreads.take (k + 1)
    rw [← hend]
    refine ⟨by rw [htake.endDepth_eq, Int.zero_add], ?_⟩
    exact htake.one_le_endDepth (Int.le_refl 0) (.inr hne)
  · refine ⟨_, (hlinked defs inst hdefs hinst).1, by simp [Wasm.programFunc, ofSteps, hlength], ?_⟩
    intro depth laps a b k d hk
    exact (hrun defs inst hdefs hinst depth laps a b hk).spec

/-- Two to the power of a difference, with the library that comes with the language: before the
subtraction there are three values on the stack. -/
theorem depths_exact_power :
    ∃ p defs inst f, compile ["2", "p1", "p2", "sub", "cpow"] = .ok p ∧
      p.depths = [1, 2, 3, 2, 1] ∧
      libraryDefinitions (Text.encode Wasm.powerLibrary) = .ok defs ∧
      instantiateBytes defs (Text.encode p.text) = .ok inst ∧ inst.code.funcs = [f] ∧
      ∀ depth laps a b, ∃ s,
        execAll (inst.callee? depth) laps (f.body.take 3) ⟨[], [a, b]⟩ = .next s ∧
          (s.stack.length : Int) = 3 := by
  obtain ⟨p, hp, hdepths, hinstrs⟩ : ∃ p, compile ["2", "p1", "p2", "sub", "cpow"] = .ok p ∧
      p.depths = [1, 2, 3, 2, 1] ∧
      p.instrs = [.push 2, .load .p1, .load .p2, .arith .sub, .call "pow"] := ⟨_, rfl, rfl, rfl⟩
  obtain ⟨c, hlibrary, hpower⟩ := Wasm.exists_libraryDefinitions
  obtain ⟨inst, hinst⟩ : ∃ inst,
      instantiateBytes [⟨"stdlib", "pow", c⟩] (Text.encode p.text) = .ok inst := by
    rw [instantiateBytes, Wasm.Module.ofBytes_compile hp]
    exact ⟨_, Wasm.instantiate_programModule (fun _ => rfl) hpower.signature p.instrs⟩
  have hdefs : ([⟨"stdlib", "pow", c⟩] : List Definition) = [] ∨
      ∃ library, libraryDefinitions library = .ok [⟨"stdlib", "pow", c⟩] := .inr ⟨_, hlibrary⟩
  obtain ⟨f, hf, -, hruns⟩ := (depths_exact hp).2.2.2.2 _ _ hdefs hinst
  refine ⟨p, _, inst, f, hp, hdepths, hlibrary, hinst, hf, fun depth laps a b => ?_⟩
  have hthree : execAll (inst.callee? depth) laps (f.body.take 3) ⟨[], [a, b]⟩ =
      .next ⟨[b, a, 2], [a, b]⟩ := by
    have hfuncs := (linked_of_instantiateBytes hp hdefs hinst).1
    rw [hf, hinstrs] at hfuncs
    rw [(List.cons.inj hfuncs).1]
    rfl
  exact ⟨_, hthree, (hruns depth laps a b 2 3 (by rw [hdepths]; rfl)).1 _ hthree⟩

end Program

end StackLang
