import StackLang.Proofs.KeptLibrary
import StackLang.Proofs.ProgramRoutes

/-!
# Runs that correspond

Two runs of one program are compared along a relation between the benches that they work on and a
relation between the faults that they may end with. A run looks at its bench in few places: it reads
a file that is set, it looks whether a library is kept, and it has texts assembled. If the relations
hold through each of these, then they hold through the whole run. Both runs have the same result, or
both end with a fault, and the two faults are related.

The relation between benches is counted, since a run assembles twice at most and what an assembly
does may depend on the names that are still to be drawn.

The first use is a relation between a bench and itself with more in its log. It shows that the log
makes no difference, and which faults a run can end with.

## Main definitions

* `Fault.OfAssembly`, `Fault.OfProgram`, `Fault.OfEngine` — where the faults of a run come from
* `Execution.Agree` — the same result, or faults that are related
* `Execution.Correspondence` — relations that hold through the parts of a run

## Main results

* `Assembly.assemble_fault` — the faults of an assembly
* `Execution.Correspondence.run` — corresponding runs agree
* `Execution.runRaw_sameButLog` — the log makes no difference to a run
-/

namespace StackLang

/-! ## Where faults come from -/

/-- The faults of an assembly with a time limit that nobody gives up. -/
inductive Fault.OfAssembly (limit : Seconds) : Fault → Prop
  | artifact (action : String) (path : Path) (cause : String) :
    OfAssembly limit (.artifact action path cause)
  | tool (report : ToolReport) : OfAssembly limit (.tool report)
  | nul : OfAssembly limit .nul
  | unencodable (flaw : Flaw) : OfAssembly limit (.unencodable flaw)
  | hugeTimeout (h : limit.isHuge = true) : OfAssembly limit .hugeTimeout

/-- The faults of texts: those of the program and of the library. -/
inductive Fault.OfProgram : Fault → Prop
  | refusal {f : Fault} (h : Program.Refusal f) : OfProgram f
  | numeralTooLong (digits : Nat) : OfProgram (.numeralTooLong digits)
  | notUtf8 : OfProgram .notUtf8

/-- The faults of the engine: it does not link, or what it has linked fails. -/
inductive Fault.OfEngine [Engine] : Fault → Prop
  | link {binary : Bytes} {library : Option Bytes} {e : Engine.Failure}
    (h : Engine.link binary library = .error e) : OfEngine (Execution.ofFailure .link e)
  | call {binary : Bytes} {library : Option Bytes} {call} {inputs : Int × Int} {e : Engine.Failure}
    (h : Engine.link binary library = .ok call) (hcall : call inputs = .error e) :
    OfEngine (Execution.ofFailure .trap e)

theorem Fault.ofAssembly_ofFile {limit : Seconds} (action : String) (path : Path) (e : FileError) :
    (ofFile action path e).OfAssembly limit := by
  cases e with
  | nul => exact .nul
  | os e => exact .artifact action path e.message

theorem Program.ofProgram_of_compileRaw {tokens : List RawText} {f : Fault}
    (h : compileRaw tokens = .error f) : f.OfProgram := by
  rcases compileRaw_ends tokens with ⟨p, hp⟩ | ⟨g, hg, hrefusal, -⟩ | ⟨token, hmeets⟩ |
    ⟨token, hmeets⟩
  · cases h.symm.trans hp
  · obtain rfl := Except.error.inj (h.symm.trans hg)
    exact .refusal hrefusal
  · obtain rfl := Except.error.inj (h.symm.trans hmeets.compileRaw_eq)
    exact .numeralTooLong _
  · obtain ⟨index, hgarbled⟩ := hmeets.compileRaw_eq
    obtain rfl := Except.error.inj (h.symm.trans hgarbled)
    exact .refusal (.garbled index token)

theorem Program.ofProgram_of_compile {tokens : List String} {f : Fault}
    (h : compile tokens = .error f) : f.OfProgram :=
  ofProgram_of_compileRaw ((compileRaw_map tokens).trans h)

namespace Assembly

variable {tool : Tool} {job : Job}

/-- Every fault that the phase carries on has the property. -/
def Phase.Carries (P : Fault → Prop) : Phase → Prop
  | .killing _ _ fault => P fault
  | .clearing _ result => ∀ f, result = .error f → P f
  | .clearingOutput _ result => ∀ f, result = .error f → P f
  | .finished result => ∀ f, result = .error f → P f
  | _ => True

theorem forall_error {α : Type} {P : Fault → Prop} {f : Fault} (h : P f) :
    ∀ g, (.error f : Except Fault α) = .error g → P g := by
  intro g hg
  exact Except.error.inj hg ▸ h

theorem removeStaged_fault {path : Path} {b b' : Bench} {f : Fault}
    (h : removeStaged path b = (.error f, b')) : f = .nul := by
  rw [removeStaged] at h
  split at h
  · cases (Prod.mk.inj h).1
  · exact (Except.error.inj (Prod.mk.inj h).1).symm
  · cases (Prod.mk.inj h).1

theorem readBytes_ofAssembly {limit : Seconds} (path : Path) (b : Bench) :
    ∀ f, readBytes path b = .error f → f.OfAssembly limit := by
  intro f h
  rw [readBytes] at h
  split at h
  · cases h
  · exact Except.error.inj h ▸ Fault.ofAssembly_ofFile _ _ _

theorem ofAssembly_timeoutFault (argv : List String) (timeout : Seconds) :
    (timeoutFault argv timeout).OfAssembly timeout := by
  rw [timeoutFault]
  split
  · rename_i hhuge
    exact .hugeTimeout hhuge
  · exact .tool _

/-- Unless the caller gives up, a step carries on faults of assemblies only. -/
theorem Moves.carries {event : Event} {s s' : Phase × Bench} (h : Moves tool job event s s')
    (hevent : event ≠ .cancelled) (hs : s.1.Carries (Fault.OfAssembly job.assembler.timeout)) :
    s'.1.Carries (Fault.OfAssembly job.assembler.timeout) := by
  cases h with
  | opened | named | wrote | started | acted | idled | succeeded | ended | unended =>
    exact True.intro
  | unopened => exact forall_error (Fault.ofAssembly_ofFile _ _ _)
  | unwritten => exact forall_error (Fault.ofAssembly_ofFile _ _ _)
  | unspoken => exact forall_error .nul
  | unencoded => exact forall_error (.unencodable _)
  | refused | failed | died => exact forall_error (.tool _)
  | timedOutLate => exact forall_error (ofAssembly_timeoutFault _ _)
  | timedOut => exact ofAssembly_timeoutFault _ _
  | cancelled | cancelledLate | interrupted => exact absurd rfl hevent
  | killed => exact forall_error hs
  | fetched => exact readBytes_ofAssembly _ _
  | kept | cleared | clearedOutput | stayed => exact hs
  | uncleared _ hremove | unclearedOutput hremove =>
    exact forall_error (removeStaged_fault hremove ▸ .nul)

/-- What every expected step preserves holds of an assembly that is left to itself. -/
theorem advance_induction {P : Phase × Bench → Prop}
    (hstep : ∀ s s', Moves tool job (expected job s.1) s s' → P s → P s') (n : Nat)
    {s : Phase × Bench} (h : P s) : P (advance tool job n s) := by
  induction n generalizing s with
  | zero => exact h
  | succ n ih => exact ih (hstep s _ (step_moves tool job _ s) h)

/-- **The faults of an assembly.** -/
theorem assemble_fault {b : Bench} {f : Fault} (h : ((assemble tool job).run.run b).1 = .error f) :
    f.OfAssembly job.assembler.timeout := by
  have hadvance : ∀ n {s : Phase × Bench},
      s.1.Carries (Fault.OfAssembly job.assembler.timeout) →
      (advance tool job n s).1.Carries (Fault.OfAssembly job.assembler.timeout) := fun n _ =>
    advance_induction (P := fun s => s.1.Carries (Fault.OfAssembly job.assembler.timeout))
      (fun s _ hmoves => hmoves.carries (expected_ne_cancelled job s.1)) n
  have hfresh : (fresh b).1.Carries (Fault.OfAssembly job.assembler.timeout) := True.intro
  have hlaunched := hadvance stepsToLaunch hfresh
  have hwhole := hadvance (advance tool job stepsToLaunch (fresh b)).1.remaining hlaunched
  rw [← complete, ← whole, whole_finished, Phase.Carries] at hwhole
  rw [run_assemble] at h
  dsimp only at h
  exact hwhole f h

end Assembly

namespace Execution

/-! ## Correspondence -/

/-- The same result, or faults that are related. -/
inductive Agree {α : Type} (E : Fault → Fault → Prop) : Except Fault α → Except Fault α → Prop
  | ok (a : α) : Agree E (.ok a) (.ok a)
  | error {f f' : Fault} (h : E f f') : Agree E (.error f) (.error f')

/-- What comes after results that agree. -/
theorem Agree.bind {α β : Type} {E : Fault → Fault → Prop} {x x' : Except Fault α}
    (h : Agree E x x') {g : α → Except Fault β} (hg : ∀ a, Agree E (g a) (g a)) :
    Agree E (x >>= g) (x' >>= g) := by
  cases h with
  | ok a => exact hg a
  | error h => exact .error h

section

variable {α : Type} {E : Fault → Fault → Prop}

theorem Agree.ok_iff {x x' : Except Fault α} (h : Agree E x x') (a : α) :
    x = .ok a ↔ x' = .ok a := by
  cases h with
  | ok c => exact Iff.rfl
  | error h => simp

theorem Agree.eq {x x' : Except Fault α} (h : Agree E x x') (heq : ∀ f f', E f f' → f = f') :
    x' = x := by
  cases h with
  | ok a => rfl
  | error h => rw [heq _ _ h]

theorem Agree.exists_right {f : Fault} {x' : Except Fault α} (h : Agree E (.error f) x') :
    ∃ f', x' = .error f' ∧ E f f' := by
  cases h with
  | error h => exact ⟨_, rfl, h⟩

theorem Agree.exists_left {f' : Fault} {x : Except Fault α} (h : Agree E x (.error f')) :
    ∃ f, x = .error f ∧ E f f' := by
  cases h with
  | error h => exact ⟨_, rfl, h⟩

end

/-- The file is one that the library is taken from. -/
def ReadsLibrary (settings : Settings) (path : Path) : Prop :=
  settings.prebuiltLibrary? = some path ∨ settings.librarySource = .file path

/-- The relations hold through the parts of a run: `R k` between benches from which `k` texts can
still be assembled, and `E` between faults. -/
structure Correspondence [Engine] (c : Call) (a : Assembler) (R : Nat → Bench → Bench → Prop)
    (E : Fault → Fault → Prop) : Prop where
  ofProgram : ∀ {f}, f.OfProgram → E f f
  ofEngine : ∀ {f}, f.OfEngine → E f f
  weaken : ∀ {k b b'}, R (k + 1) b b' → R k b b'
  library : ∀ {k b b'}, R k b b' → b.library = b'.library
  tell : ∀ {k b b'} (r : Record), R k b b' → R k (b.tell r) (b'.tell r)
  keep : ∀ {k b b'} (bytes : Bytes), R k b b' →
    R k { b with library := some bytes } { b' with library := some bytes }
  read : ∀ {k b b' path}, ReadsLibrary c.settings path → R k b b' →
    Agree E (Assembly.readBytes path b) (Assembly.readBytes path b')
  assemble : ∀ {k b b'} (text : String), R (k + 1) b b' →
    let done := (assemble (c.session a) a c.cleanup text).run.run b
    let done' := (assemble (c.session a) a c.cleanup text).run.run b'
    Agree E done.1 done'.1 ∧ R k done.2 done'.2

namespace Correspondence

variable [Engine] {c : Call} {a : Assembler} {R : Nat → Bench → Bench → Prop}
  {E : Fault → Fault → Prop} {k : Nat} {b b' : Bench} {p : Program}

theorem sourceText (h : Correspondence c a R E) (hr : R k b b') :
    Agree E (sourceText b c.settings.librarySource) (sourceText b' c.settings.librarySource) := by
  cases hsource : c.settings.librarySource with
  | bundled => exact .ok Wasm.powerLibrary
  | file path =>
    rw [Execution.sourceText, Execution.sourceText]
    refine (h.read (.inr hsource) hr).bind fun bytes => ?_
    cases Text.decode? bytes with
    | none => exact .error (h.ofProgram .notUtf8)
    | some text => exact .ok _

/-- Corresponding runs come by the same library, or fail to. -/
theorem load (h : Correspondence c a R E) (hr : R (k + 1) b b') :
    Agree E (c.load a b).1 (c.load a b').1 ∧ R k (c.load a b).2 (c.load a b').2 := by
  cases hset : c.settings.prebuiltLibrary? with
  | some path =>
    rw [Call.load_of_set hset, Call.load_of_set hset]
    exact ⟨h.read (.inl hset) hr, h.weaken (h.tell _ hr)⟩
  | none =>
    cases hlibrary : b.library with
    | some bytes =>
      rw [Call.load_of_kept hset hlibrary, Call.load_of_kept hset (h.library hr ▸ hlibrary)]
      exact ⟨.ok bytes, h.weaken hr⟩
    | none =>
      have hlibrary' : b'.library = none := h.library hr ▸ hlibrary
      have htexts := h.sourceText hr
      generalize htext : Execution.sourceText b c.settings.librarySource = x at htexts
      generalize htext' : Execution.sourceText b' c.settings.librarySource = x' at htexts
      cases htexts with
      | error hfaults =>
        rw [Call.load_of_unread hset hlibrary htext, Call.load_of_unread hset hlibrary' htext']
        exact ⟨.error hfaults, h.weaken hr⟩
      | ok text =>
        have hdone := h.assemble text hr
        rcases hrun : (Execution.assemble (c.session a) a c.cleanup text).run.run b with ⟨y, d⟩
        rcases hrun' : (Execution.assemble (c.session a) a c.cleanup text).run.run b' with ⟨y', d'⟩
        rw [hrun, hrun'] at hdone
        obtain ⟨hagree, hafter⟩ := hdone
        rw [Call.load_of_read hset hlibrary htext hrun,
          Call.load_of_read hset hlibrary' htext' hrun']
        cases hagree with
        | error hfaults => exact ⟨.error hfaults, hafter⟩
        | ok library => exact ⟨.ok library, h.keep library hafter⟩

/-- Corresponding runs that have come by the same library agree. -/
theorem finish (h : Correspondence c a R E) (hr : R (k + 1) b b') (library : Option Bytes) :
    Agree E ((c.finish a p library).run.run b).1 ((c.finish a p library).run.run b').1 := by
  have hdone := h.assemble p.text hr
  rcases hrun : (Execution.assemble (c.session a) a c.cleanup p.text).run.run b with ⟨y, d⟩
  rcases hrun' : (Execution.assemble (c.session a) a c.cleanup p.text).run.run b' with ⟨y', d'⟩
  rw [hrun, hrun'] at hdone
  rw [Call.run_finish hrun, Call.run_finish hrun']
  refine hdone.1.bind fun binary => ?_
  rw [link]
  cases hlink : Engine.link binary library with
  | error e => exact .error (h.ofEngine (.link hlink))
  | ok call =>
    change Agree E (compute ⟨call, some p⟩ c.inputs) (compute ⟨call, some p⟩ c.inputs)
    rw [compute]
    dsimp only
    cases hcall : call c.inputs with
    | ok result => exact .ok result
    | error e => exact .error (h.ofEngine (.call hlink hcall))

/-- **Corresponding runs agree.** -/
theorem run (h : Correspondence c a R E) (hr : R 2 b b') :
    Agree E (c.run a b).1 (c.run a b').1 := by
  cases hp : Program.compile c.tokens with
  | error f =>
    rw [Call.run_of_uncompiled hp, Call.run_of_uncompiled hp]
    exact .error (h.ofProgram (Program.ofProgram_of_compile hp))
  | ok p =>
    have hcompiled : R 2 (compiled p b) (compiled p b') := h.tell _ hr
    cases hneeds : p.needsLibrary with
    | false =>
      rw [Call.run_of_plain hp hneeds, Call.run_of_plain hp hneeds]
      exact h.finish hcompiled none
    | true =>
      obtain ⟨hagree, hloaded⟩ := h.load hcompiled
      rcases hload : c.load a (compiled p b) with ⟨x, d⟩
      rcases hload' : c.load a (compiled p b') with ⟨x', d'⟩
      rw [hload, hload'] at hagree hloaded
      cases hagree with
      | error hfaults =>
        rw [Call.run_of_unloaded hp hneeds hload, Call.run_of_unloaded hp hneeds hload']
        exact .error hfaults
      | ok library =>
        rw [Call.run_of_loaded hp hneeds hload, Call.run_of_loaded hp hneeds hload']
        exact h.finish hloaded (some library)

end Correspondence

/-! ## Sessions

A run of a program belongs to a session, whose assembler may be one that could not be made. -/

section

variable [Engine] {s : Session} {cleanup : Bool} {tokens : List String} {inputs : Int × Int}

theorem run_runProgram_of_assembler {a : Assembler} (h : s.assembler = .ok a) (b : Bench) :
    (runProgram s cleanup tokens inputs).run.run b
      = (Call.mk s.settings s.tool cleanup tokens inputs).run a b := by
  have hsession : (Call.mk s.settings s.tool cleanup tokens inputs).session a = s := by
    rw [Call.session, ← h]
  rw [Call.run, hsession]

theorem run_runProgram_of_uncompiled {f : Fault} (h : Program.compile tokens = .error f)
    (b : Bench) : (runProgram s cleanup tokens inputs).run.run b = (.error f, b) := by
  rw [runProgram, importProgram, bind_assoc, Work.run_bind_of_error (run_compile_of_error h b)]

/-- Without an assembler a program that compiles gets no further. -/
theorem run_runProgram_of_unassembled {f : Fault} {p : Program} (h : s.assembler = .error f)
    (hp : Program.compile tokens = .ok p) (b : Bench) :
    (runProgram s cleanup tokens inputs).run.run b = (.error f, compiled p b) := by
  rw [runProgram, importProgram, bind_assoc, Work.run_bind_of_ok (run_compile_of_ok hp b),
    bind_assoc, h, Work.run_bind_of_error (Work.run_ofExcept _ _), compiled]

/-- **Corresponding runs of a session agree.** -/
theorem agree_runProgram {R : Nat → Bench → Bench → Prop} {E : Fault → Fault → Prop}
    (hmade : ∀ a, s.assembler = .ok a →
      Correspondence (Call.mk s.settings s.tool cleanup tokens inputs) a R E)
    (hprogram : ∀ f, f.OfProgram → E f f) (hunmade : ∀ f, s.assembler = .error f → E f f)
    {b b' : Bench} (hr : R 2 b b') :
    Agree E ((runProgram s cleanup tokens inputs).run.run b).1
      ((runProgram s cleanup tokens inputs).run.run b').1 := by
  cases hassembler : s.assembler with
  | ok a =>
    rw [run_runProgram_of_assembler hassembler, run_runProgram_of_assembler hassembler]
    exact (hmade a hassembler).run hr
  | error f =>
    cases hp : Program.compile tokens with
    | error g =>
      rw [run_runProgram_of_uncompiled hp, run_runProgram_of_uncompiled hp]
      exact .error (hprogram g (Program.ofProgram_of_compile hp))
    | ok p =>
      rw [run_runProgram_of_unassembled hassembler hp, run_runProgram_of_unassembled hassembler hp]
      exact .error (hunmade f hassembler)

/-- The same for raw tokens, which are all texts if they are run at all. -/
theorem agree_runRaw {R : Nat → Bench → Bench → Prop} {E : Fault → Fault → Prop}
    {tokens : List RawText}
    (hmade : ∀ texts a, s.assembler = .ok a →
      Correspondence (Call.mk s.settings s.tool cleanup texts inputs) a R E)
    (hprogram : ∀ f, f.OfProgram → E f f) (hunmade : ∀ f, s.assembler = .error f → E f f)
    {b b' : Bench} (hr : R 2 b b') :
    Agree E ((runRaw s cleanup tokens inputs).run.run b).1
      ((runRaw s cleanup tokens inputs).run.run b').1 := by
  cases htexts : Program.textsOf tokens with
  | error f =>
    rw [run_runRaw_of_textsOf_error htexts, run_runRaw_of_textsOf_error htexts]
    have hcompile := Program.compileRaw_of_textsOf_error htexts
    exact .error (hprogram f (Program.ofProgram_of_compileRaw hcompile))
  | ok texts =>
    rw [run_runRaw_of_textsOf_ok htexts, run_runRaw_of_textsOf_ok htexts]
    exact agree_runProgram (hmade texts) hprogram hunmade hr

end

/-! ## The log makes no difference -/

/-- The benches differ in no more than log and count. -/
structure SameButLog (b b' : Bench) : Prop where
  alike : b.Alike b'
  library : b.library = b'.library

namespace SameButLog

theorem refl (b : Bench) : SameButLog b b := ⟨⟨rfl, rfl, rfl⟩, rfl⟩

theorem trans {b b' b'' : Bench} (h : SameButLog b b') (h' : SameButLog b' b'') :
    SameButLog b b'' :=
  ⟨⟨h.alike.files.trans h'.alike.files, h.alike.namer.trans h'.alike.namer,
    h.alike.processes.trans h'.alike.processes⟩, h.library.trans h'.library⟩

/-- What is told to the second bench alone makes no difference. -/
theorem tell {b b' : Bench} (h : SameButLog b b') (r : Record) : SameButLog b (b'.tell r) :=
  ⟨⟨h.alike.files, h.alike.namer, h.alike.processes⟩, h.library⟩

end SameButLog

section

variable [Engine] {P : Fault → Prop} (hprogram : ∀ f, f.OfProgram → P f)
  (hengine : ∀ f, f.OfEngine → P f)

include hprogram hengine

/-- Runs from benches that differ in no more than log and count correspond, and have no other faults
than programs and assemblies have. -/
theorem Call.correspondence_sameButLog (c : Call) {a : Assembler}
    (hassembly : ∀ f, f.OfAssembly a.timeout → P f) :
    Correspondence c a (fun _ => SameButLog) (fun f f' => f = f' ∧ P f) where
  ofProgram h := ⟨rfl, hprogram _ h⟩
  ofEngine h := ⟨rfl, hengine _ h⟩
  weaken h := h
  library h := h.library
  tell _ h := ⟨⟨h.alike.files, h.alike.namer, h.alike.processes⟩, h.library⟩
  keep _ h := ⟨⟨h.alike.files, h.alike.namer, h.alike.processes⟩, rfl⟩
  read {_ b b' path} _ h := by
    have hsame : Assembly.readBytes path b' = Assembly.readBytes path b := by
      rw [Assembly.readBytes, Assembly.readBytes, h.alike.files]
    rw [hsame]
    cases hread : Assembly.readBytes path b with
    | ok bytes => exact .ok bytes
    | error f => exact .error ⟨rfl, hassembly f (Assembly.readBytes_ofAssembly path b f hread)⟩
  assemble {_ b b'} text h := by
    rcases hrun : (assemble (c.session a) a c.cleanup text).run.run b with ⟨x, d⟩
    obtain ⟨d', hrun', halike⟩ := Assembly.assemble_alike h.alike hrun
    have hkept := (Assembly.assemble_books hrun).1
    have hkept' := (Assembly.assemble_books hrun').1
    rw [assemble, hrun']
    refine ⟨?_, halike, hkept.trans (h.library.trans hkept'.symm)⟩
    cases x with
    | ok bytes => exact .ok bytes
    | error f => exact .error ⟨rfl, hassembly f (Assembly.assemble_fault (congrArg Prod.fst hrun))⟩

/-- **The log makes no difference to a run**, and a run ends with a fault of the program, of the
engine, of an assembly or of making the assembler, if with any. -/
theorem runRaw_sameButLog {s : Session}
    (hassembly : ∀ a, s.assembler = .ok a → ∀ f, f.OfAssembly a.timeout → P f)
    (hunmade : ∀ f, s.assembler = .error f → P f)
    (cleanup : Bool) (tokens : List RawText) (inputs : Int × Int) {b b' : Bench}
    (h : SameButLog b b') :
    Agree (fun f f' => f = f' ∧ P f) ((runRaw s cleanup tokens inputs).run.run b).1
      ((runRaw s cleanup tokens inputs).run.run b').1 :=
  agree_runRaw
    (fun _ a ha => Call.correspondence_sameButLog hprogram hengine _ (hassembly a ha))
    (fun f hf => ⟨rfl, hprogram f hf⟩) (fun f hf => ⟨rfl, hunmade f hf⟩) h

end

end Execution

end StackLang
