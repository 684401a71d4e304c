import Mathlib.Data.List.Forall2
import StackLang.Proofs.CopyingTool
import StackLang.Proofs.Correspondence
import StackLang.Proofs.SameButNames
import StackLang.Proofs.StagedPaths

/-!
# Runs under other names

A program that is run twice stages its files under other names each time. This file compares the two
runs. They start with the same files, up to a renaming that takes the names of the one run to those
of the other one, and with a tool that does the same whatever the staged files are called: it may
repeat their names where it says what is wrong.

The two assemblies go in step. What one step does to files and phase, it does to the renamed files
and the phase of the other assembly, and the same comes from outside. So the assemblies end in the
same bytes, or in faults that are told alike, and this is all that a run sees of them.

## Main definitions

* `Act.Mirrors`, `Process.Mirrors`, `Launch.Mirrors` — tools that do the same
* `Assembly.Pair.Mirrors` — staged files and their counterparts
* `Assembly.Twins` — names under which the same happens
* `Bench.Mirrors` — benches to start from
* `Tool.Uniform` — a tool that does not care about names

## Main results

* `Assembly.Mirrors.step` — two assemblies go in step
* `Assembly.assemble_mirrors` — they end alike
* `Assembly.uniform_copying` — the copying tool does the same under all names
* `Execution.correspondence_mirrors` — runs under other names correspond
-/

namespace StackLang

open Execution (Agree)

/-! ## Tools -/

/-- The acts do the same on a tree and on its counterpart. -/
def Act.Mirrors (ρ : Renaming) (act act' : Act) : Prop :=
  ∀ (memory : Bytes) {t t' : FileTree}, t.Mirrors ρ t' →
    (act memory t).1 = (act' memory t').1 ∧ (act memory t).2.Mirrors ρ (act' memory t').2

/-- The processes do the same, and what they write to their error channels is the same but for
names. -/
structure Process.Mirrors (ρ : Renaming) (N : List Char → List Char → Prop)
    (p p' : Process) : Prop where
  memory : p.memory = p'.memory
  acts : List.Forall₂ (Act.Mirrors ρ) p.acts p'.acts
  stderr : Text.SameBut N (Text.decodeLenient p.stderr).toList
    (Text.decodeLenient p'.stderr).toList
  ending : p.ending = p'.ending

/-- The same comes of starting two tools. -/
inductive Launch.Mirrors (ρ : Renaming) (N : List Char → List Char → Prop) :
    Launch → Launch → Prop
  | refused (errno : Errno) : Mirrors ρ N (.refused errno) (.refused errno)
  | started {p p' : Process} (h : p.Mirrors ρ N p') : Mirrors ρ N (.started p) (.started p')

theorem Act.mirrors_reading (ρ : Renaming) (p : Path) :
    Act.Mirrors ρ (.reading p) (.reading (ρ.path p)) := by
  intro memory t t' h
  have hread := h.read p
  rw [reading, reading]
  generalize t.read p = x at hread ⊢
  generalize t'.read (ρ.path p) = x' at hread ⊢
  cases hread with
  | ok hbytes => exact ⟨hbytes, h⟩
  | error why => exact ⟨rfl, h⟩

theorem Act.mirrors_writing (ρ : Renaming) (p : Path) :
    Act.Mirrors ρ (.writing p) (.writing (ρ.path p)) := by
  intro memory t t' h
  have hwrite := h.write p memory
  rw [writing, writing]
  generalize t.write p memory = x at hwrite ⊢
  generalize t'.write (ρ.path p) memory = x' at hwrite ⊢
  cases hwrite with
  | ok htree => exact ⟨rfl, htree⟩
  | error why => exact ⟨rfl, h⟩

/-! ## Benches -/

/-- The benches have the same files, renamed, and the same library, and the next `k` names that they
draw belong together. -/
structure Bench.Mirrors (ρ : Renaming) (D : String → String → Prop) (k : Nat)
    (b b' : Bench) : Prop where
  files : b.files.Mirrors ρ b'.files
  library : b.library = b'.library
  names : List.Forall₂ D (b.namer.drawMany k) (b'.namer.drawMany k)

theorem Bench.Mirrors.weaken {ρ : Renaming} {D : String → String → Prop} {k : Nat} {b b' : Bench}
    (h : b.Mirrors ρ D (k + 1) b') : b.Mirrors ρ D k b' := by
  have hnames : ∀ (k : Nat) {n n' : Namer},
      List.Forall₂ D (n.drawMany (k + 1)) (n'.drawMany (k + 1)) →
      List.Forall₂ D (n.drawMany k) (n'.drawMany k) := by
    intro k
    induction k with
    | zero => exact fun _ => .nil
    | succ k ih =>
      intro n n' h
      obtain ⟨hfirst, hrest⟩ := List.forall₂_cons.mp h
      exact .cons hfirst (ih hrest)
  exact ⟨h.files, h.library, hnames k h.names⟩

namespace Assembly

section

variable {tool : Tool} {a : Assembler} {ρ : Renaming} {N : List Char → List Char → Prop}
  {k : Nat} {b b' : Bench} {pair pair' : Pair}

/-! ## Staged files -/

/-- The staged files are counterparts: their paths are renamed, the texts of these are the same but
for names, and the tool does the same with both. -/
structure Pair.Mirrors (tool : Tool) (a : Assembler) (ρ : Renaming)
    (N : List Char → List Char → Prop) (pair pair' : Pair) : Prop where
  source : pair'.source = ρ.path pair.source
  output : pair'.output = ρ.path pair.output
  sourceText : Text.SameBut N pair.source.text.toList pair'.source.text.toList
  outputText : Text.SameBut N pair.output.text.toList pair'.output.text.toList
  launch : ∀ {job : Job} {t t' : FileTree}, job.assembler = a → t.Mirrors ρ t' →
    Launch.Mirrors ρ N (tool (job.argv pair) t) (tool (job.argv pair') t')

/-- The names are twins: the files that are staged under them are counterparts. -/
def Twins (tool : Tool) (a : Assembler) (ρ : Renaming) (N : List Char → List Char → Prop)
    (n m : String) : Prop :=
  (Pair.under a.directory n).Mirrors tool a ρ N (Pair.under a.directory m)

namespace Pair.Mirrors

variable {job : Job}

theorem headD_argv (h : pair.Mirrors tool a ρ N pair') (job : Job) (default : String) :
    Text.SameBut N ((job.argv pair).headD default).toList
      ((job.argv pair').headD default).toList := by
  rw [Job.argv, Job.argv]
  cases job.assembler.command with
  -- without a command the first word is the staged file itself
  | nil => exact h.sourceText
  | cons word words => exact .refl N _

theorem hasNul_argv (h : pair.Mirrors tool a ρ N pair') :
    (job.argv pair').any FileTree.hasNul = (job.argv pair).any FileTree.hasNul := by
  simp only [Job.argv, List.any_append, List.any_cons, h.source, h.output, ρ.hasNul_path]

theorem startFault (hN : Text.Unaltered N) (h : pair.Mirrors tool a ρ N pair') (errno : Errno) :
    Fault.SameBut N (startFault (job.argv pair) errno) (startFault (job.argv pair') errno) := by
  have hcause := OsError.sameBut_message hN errno (h.headD_argv job "")
  refine .tool hN ⟨h.headD_argv job _, rfl, rfl, .refl N _, .inr ⟨_, _, rfl, rfl, ?_⟩⟩
  simp only [String.toList_append]
  exact ((Text.SameBut.refl N _).append hcause).append (.refl N _)

theorem timeoutFault (hN : Text.Unaltered N) (h : pair.Mirrors tool a ρ N pair')
    (timeout : Seconds) :
    Fault.SameBut N (timeoutFault (job.argv pair) timeout)
      (timeoutFault (job.argv pair') timeout) := by
  rw [Assembly.timeoutFault, Assembly.timeoutFault]
  split
  · exact .refl N _
  · exact .tool hN ⟨h.headD_argv job _, rfl, rfl, .refl N _, .inr ⟨_, _, rfl, rfl, .refl N _⟩⟩

variable {p p' : Process}

theorem exitFault (hN : Text.Unaltered N) (h : pair.Mirrors tool a ρ N pair')
    (hp : p.Mirrors ρ N p') (code : Nat) :
    Fault.SameBut N (exitFault (job.argv pair) code p.stderr)
      (exitFault (job.argv pair') code p'.stderr) :=
  .tool hN ⟨h.headD_argv job _, rfl, rfl, hp.stderr, .inl ⟨rfl, rfl⟩⟩

theorem signalFault (hN : Text.Unaltered N) (h : pair.Mirrors tool a ρ N pair')
    (hp : p.Mirrors ρ N p') (number : Nat) :
    Fault.SameBut N (signalFault (job.argv pair) number p.stderr)
      (signalFault (job.argv pair') number p'.stderr) :=
  .tool hN ⟨h.headD_argv job _, rfl, rfl, hp.stderr, .inl ⟨rfl, rfl⟩⟩

end Pair.Mirrors

/-! ## Phases -/

/-- The phases of two assemblies that go in step. -/
inductive Phase.Mirrors (tool : Tool) (a : Assembler) (ρ : Renaming)
    (N : List Char → List Char → Prop) : Phase → Phase → Prop
  | opening : Mirrors tool a ρ N .opening .opening
  | naming : Mirrors tool a ρ N .naming .naming
  | writing {pair pair' : Pair} (h : pair.Mirrors tool a ρ N pair') :
    Mirrors tool a ρ N (.writing pair) (.writing pair')
  | launching {pair pair' : Pair} (h : pair.Mirrors tool a ρ N pair') :
    Mirrors tool a ρ N (.launching pair) (.launching pair')
  | waiting {pair pair' : Pair} {number number' : Nat} {process process' : Process}
    (h : pair.Mirrors tool a ρ N pair') (hprocess : process.Mirrors ρ N process') :
    Mirrors tool a ρ N (.waiting pair number process) (.waiting pair' number' process')
  | killing {pair pair' : Pair} {number number' : Nat} {fault fault' : Fault}
    (h : pair.Mirrors tool a ρ N pair') (hfault : Fault.SameBut N fault fault') :
    Mirrors tool a ρ N (.killing pair number fault) (.killing pair' number' fault')
  | reading {pair pair' : Pair} (h : pair.Mirrors tool a ρ N pair') :
    Mirrors tool a ρ N (.reading pair) (.reading pair')
  | clearing {pair pair' : Pair} {result result' : Except Fault Bytes}
    (h : pair.Mirrors tool a ρ N pair') (hresult : Agree (Fault.SameBut N) result result') :
    Mirrors tool a ρ N (.clearing pair result) (.clearing pair' result')
  | clearingOutput {pair pair' : Pair} {result result' : Except Fault Bytes}
    (h : pair.Mirrors tool a ρ N pair') (hresult : Agree (Fault.SameBut N) result result') :
    Mirrors tool a ρ N (.clearingOutput pair result) (.clearingOutput pair' result')
  | finished {result result' : Except Fault Bytes}
    (hresult : Agree (Fault.SameBut N) result result') :
    Mirrors tool a ρ N (.finished result) (.finished result')

/-- How many names are still to be drawn. -/
def Phase.draws : Phase → Nat
  | .opening => 1
  | .naming => 1
  | _ => 0

/-- Two assemblies go in step, with `k` more names to be drawn after them. -/
structure Mirrors (tool : Tool) (a : Assembler) (ρ : Renaming) (N : List Char → List Char → Prop)
    (k : Nat) (s s' : Phase × Bench) : Prop where
  phase : s.1.Mirrors tool a ρ N s'.1
  alive : s.1.process?.map s.2.isAlive = s'.1.process?.map s'.2.isAlive
  bench : s.2.Mirrors ρ (Twins tool a ρ N) (k + s.1.draws) s'.2

theorem Phase.Mirrors.remaining_eq {phase phase' : Phase} (h : phase.Mirrors tool a ρ N phase') :
    phase.remaining = phase'.remaining := by
  cases h with
  | waiting _ hprocess => rw [remaining, remaining, hprocess.acts.length_eq]
  | _ => rfl

/-- The same is expected of both. -/
theorem Phase.Mirrors.expected_eq {phase phase' : Phase} (h : phase.Mirrors tool a ρ N phase')
    (job : Job) : expected job phase = expected job phase' := by
  cases h with
  | @waiting _ _ _ _ process process' _ hprocess =>
    have hacts := hprocess.acts
    rw [expected, expected, hprocess.ending]
    generalize process.acts = acts at hacts ⊢
    generalize process'.acts = acts' at hacts ⊢
    cases hacts with
    | nil => rfl
    | cons _ _ => rfl
  | _ => rfl

theorem Phase.Mirrors.result {phase phase' : Phase} (h : phase.Mirrors tool a ρ N phase') :
    Agree (Fault.SameBut N) phase.result phase'.result := by
  cases h with
  | finished hresult => exact hresult
  | _ => exact .error (.refl N .cancelled)

/-! ## Single steps -/

variable {D : String → String → Prop}

theorem openDirectory_mirrors {directory : Path} (hfix : ρ.Fixes directory)
    (hb : b.Mirrors ρ D k b') :
    Agree (Fault.SameBut N) (openDirectory directory b).1 (openDirectory directory b').1 ∧
      (openDirectory directory b).2.Mirrors ρ D k (openDirectory directory b').2 := by
  have hmade := hb.files.makeDirectories hfix
  rw [openDirectory, openDirectory]
  generalize b.files.makeDirectories directory = x at hmade ⊢
  generalize b'.files.makeDirectories directory = x' at hmade ⊢
  obtain ⟨files, result⟩ := x
  obtain ⟨files', result'⟩ := x'
  obtain ⟨hfiles, rfl⟩ : files.Mirrors ρ files' ∧ result = result' := hmade
  cases result with
  | ok => exact ⟨.ok _, hfiles, hb.library, hb.names⟩
  | error e => exact ⟨.error (.refl N _), hfiles, hb.library, hb.names⟩

theorem writeText_mirrors (hN : Text.Unaltered N) (h : pair.Mirrors tool a ρ N pair')
    (text : RawText) (hb : b.Mirrors ρ D k b') :
    Agree (Fault.SameBut N) (writeText pair.source text b).1 (writeText pair'.source text b').1 ∧
      (writeText pair.source text b).2.Mirrors ρ D k (writeText pair'.source text b').2 := by
  have hwrite := hb.files.write pair.source (contents text)
  have htext := h.sourceText
  rw [← h.source] at hwrite
  rw [writeText, writeText]
  generalize b.files.write pair.source (contents text) = x at hwrite ⊢
  generalize b'.files.write pair'.source (contents text) = x' at hwrite ⊢
  cases hwrite with
  | ok hfiles =>
    cases text.encode with
    | ok bytes => exact ⟨.ok _, hfiles, hb.library, hb.names⟩
    | error flaw => exact ⟨.error (.refl N _), hfiles, hb.library, hb.names⟩
  | error why => exact ⟨.error (Fault.sameBut_ofFile hN "write" htext why), hb⟩

theorem readBytes_mirrors (hN : Text.Unaltered N) {p p' : Path} (hpath : p' = ρ.path p)
    (htext : Text.SameBut N p.text.toList p'.text.toList) (hb : b.Mirrors ρ D k b') :
    Agree (Fault.SameBut N) (readBytes p b) (readBytes p' b') := by
  have hread := hb.files.read p
  rw [← hpath] at hread
  rw [readBytes, readBytes]
  generalize b.files.read p = x at hread ⊢
  generalize b'.files.read p' = x' at hread ⊢
  cases hread with
  | ok hbytes =>
    subst hbytes
    exact .ok _
  | error why => exact .error (Fault.sameBut_ofFile hN "read" htext why)

/-- Removing does the same, whatever is told about it. -/
theorem removeStaged_mirrors (N : List Char → List Char → Prop) {p p' : Path}
    (hpath : p' = ρ.path p) (hb : b.Mirrors ρ D k b') :
    Agree (Fault.SameBut N) (removeStaged p b).1 (removeStaged p' b').1 ∧
      (removeStaged p b).2.Mirrors ρ D k (removeStaged p' b').2 := by
  have hremove := hb.files.remove p
  rw [← hpath] at hremove
  rw [removeStaged, removeStaged]
  generalize b.files.remove p = x at hremove ⊢
  generalize b'.files.remove p' = x' at hremove ⊢
  cases hremove with
  | ok hfiles => exact ⟨.ok _, hfiles, hb.library, hb.names⟩
  | error why =>
    cases why with
    | none => exact ⟨.error (.refl N _), hb⟩
    | some errno =>
      -- the records name different files, but nobody compares the logs
      refine ⟨.ok _, ?_⟩
      dsimp only [FileError.about]
      split
      · exact hb
      · exact ⟨hb.files, hb.library, hb.names⟩

variable {job : Job}

/-- Starting the tool does the same. -/
theorem launch_mirrors (hN : Text.Unaltered N) (hjob : job.assembler = a)
    (h : pair.Mirrors tool a ρ N pair') (hb : b.Mirrors ρ (Twins tool a ρ N) k b') :
    Mirrors tool a ρ N k (launch tool job pair b) (launch tool job pair' b') := by
  have hlaunch := h.launch hjob hb.files
  rw [launch, launch, h.hasNul_argv]
  cases (job.argv pair).any FileTree.hasNul with
  | true => exact ⟨.clearing h (.error (.refl N _)), rfl, hb.files, hb.library, hb.names⟩
  | false =>
    rw [if_neg Bool.false_ne_true, if_neg Bool.false_ne_true]
    generalize tool (job.argv pair) b.files = x at hlaunch ⊢
    generalize tool (job.argv pair') b'.files = x' at hlaunch ⊢
    cases hlaunch with
    | refused errno =>
      exact ⟨.clearing h (.error (h.startFault hN errno)), rfl, hb.files, hb.library, hb.names⟩
    | started hprocess =>
      refine ⟨.waiting h hprocess, congrArg some ?_, hb.files, hb.library, hb.names⟩
      rw [Bench.isAlive_begin, Bench.isAlive_begin]
      simp [Bench.begin]

/-- One act, or the end, of two tools that do the same. -/
theorem proceed_mirrors (hN : Text.Unaltered N) (h : pair.Mirrors tool a ρ N pair')
    {p p' : Process} (hp : p.Mirrors ρ N p') (hb : b.Mirrors ρ (Twins tool a ρ N) k b')
    {number number' : Nat} (halive : b.isAlive number = b'.isAlive number') :
    Mirrors tool a ρ N k (proceed job pair number p b) (proceed job pair' number' p' b') := by
  obtain ⟨memory, acts, stderr, ending⟩ := p
  obtain ⟨memory', acts', stderr', ending'⟩ := p'
  obtain ⟨hmemory, hacts, hstderr, hending⟩ := id hp
  obtain rfl : memory = memory' := hmemory
  obtain rfl : ending = ending' := hending
  cases hacts with
  | cons hact hrest =>
    obtain ⟨hafter, hfiles⟩ := hact memory hb.files
    exact ⟨.waiting h ⟨hafter, hrest, hstderr, rfl⟩, congrArg some halive, hfiles, hb.library,
      hb.names⟩
  | nil =>
    rw [proceed, proceed]
    dsimp only
    split
    · exact ⟨.waiting h hp, congrArg some halive, hb.files, hb.library, hb.names⟩
    · exact ⟨.reading h, rfl, hb.files, hb.library, hb.names⟩
    · exact ⟨.clearing h (.error (h.exitFault hN hp _)), rfl, hb.files, hb.library, hb.names⟩
    · exact ⟨.clearing h (.error (h.signalFault hN hp _)), rfl, hb.files, hb.library, hb.names⟩

/-- The end of two tools that do the same, before it is noticed. -/
theorem exit_mirrors (h : pair.Mirrors tool a ρ N pair') {p p' : Process} (hp : p.Mirrors ρ N p')
    (hb : b.Mirrors ρ (Twins tool a ρ N) k b') {number number' : Nat}
    (halive : b.isAlive number = b'.isAlive number') :
    Mirrors tool a ρ N k (.waiting pair number p, exit number p b)
      (.waiting pair' number' p', exit number' p' b') := by
  have hacts : p.acts.isEmpty = p'.acts.isEmpty := by
    rw [Bool.eq_iff_iff, List.isEmpty_iff_length_eq_zero, List.isEmpty_iff_length_eq_zero,
      hp.acts.length_eq]
  have hover : p.isOver = p'.isOver := by
    rw [Process.isOver, Process.isOver, hacts, hp.ending]
  rw [exit, exit, hover]
  split
  · refine ⟨.waiting h hp, congrArg some ?_, hb.files, hb.library, hb.names⟩
    rw [Bench.isAlive_mark _ _ _ (by decide), Bench.isAlive_mark _ _ _ (by decide)]
    simp
  · exact ⟨.waiting h hp, congrArg some halive, hb⟩

/-- Two tools that are waited for no longer are both to be killed, or none of them is. -/
theorem abandon_mirrors (h : pair.Mirrors tool a ρ N pair') {fault fault' : Fault}
    (hfault : Fault.SameBut N fault fault') (hb : b.Mirrors ρ (Twins tool a ρ N) k b')
    {number number' : Nat} (halive : b.isAlive number = b'.isAlive number') :
    Mirrors tool a ρ N k (abandon pair number fault b) (abandon pair' number' fault' b') := by
  rw [abandon, abandon, ← halive]
  split
  · exact ⟨.killing h hfault, congrArg some halive, hb⟩
  · exact ⟨.clearing h (.error hfault), rfl, hb⟩

/-- **Two assemblies go in step.** -/
theorem Mirrors.step (hN : Text.Unaltered N) (hjob : job.assembler = a)
    (hfix : ρ.Fixes a.directory) {s s' : Phase × Bench} (h : Mirrors tool a ρ N k s s')
    (event : Event) :
    Mirrors tool a ρ N k (step tool job event s) (step tool job event s') := by
  obtain ⟨phase, b⟩ := s
  obtain ⟨phase', b'⟩ := s'
  obtain ⟨hphase, halive, hb⟩ := h
  dsimp only at hphase halive hb
  subst hjob
  cases hphase with
  | opening =>
    have hopened := openDirectory_mirrors (N := N) hfix hb
    rw [Assembly.step, Assembly.step]
    generalize openDirectory job.assembler.directory b = x at hopened ⊢
    generalize openDirectory job.assembler.directory b' = x' at hopened ⊢
    obtain ⟨result, c⟩ := x
    obtain ⟨result', c'⟩ := x'
    obtain ⟨hresult, hc⟩ := hopened
    dsimp only at hresult hc
    cases hresult with
    | ok => exact ⟨.naming, rfl, hc⟩
    -- no name is drawn any more, so there is one to spare
    | error hfault => exact ⟨.finished (.error hfault), rfl, hc.weaken⟩
  | naming =>
    obtain ⟨htwins, hrest⟩ := List.forall₂_cons.mp hb.names
    exact ⟨.writing htwins, rfl, hb.files, hb.library, hrest⟩
  | @writing pair pair' hpair =>
    have hwritten := writeText_mirrors hN hpair job.text hb
    rw [Assembly.step, Assembly.step]
    generalize writeText pair.source job.text b = x at hwritten ⊢
    generalize writeText pair'.source job.text b' = x' at hwritten ⊢
    obtain ⟨result, c⟩ := x
    obtain ⟨result', c'⟩ := x'
    obtain ⟨hresult, hc⟩ := hwritten
    dsimp only at hresult hc
    cases hresult with
    | ok => exact ⟨.launching hpair, rfl, hc⟩
    | error hfault => exact ⟨.clearing hpair (.error hfault), rfl, hc⟩
  | launching hpair => exact launch_mirrors hN rfl hpair hb
  | waiting hpair hprocess =>
    have hsame := Option.some.inj halive
    cases event with
    | proceeds => exact proceed_mirrors hN hpair hprocess hb hsame
    | exits => exact exit_mirrors hpair hprocess hb hsame
    | timedOut => exact abandon_mirrors hpair (hpair.timeoutFault hN _) hb hsame
    | cancelled => exact abandon_mirrors hpair (.refl N .cancelled) hb hsame
  | killing hpair hfault =>
    simp only [Assembly.step, kill]
    split
    · exact ⟨.clearing hpair (.error (.refl N .cancelled)), rfl, hb.files, hb.library, hb.names⟩
    · exact ⟨.clearing hpair (.error hfault), rfl, hb.files, hb.library, hb.names⟩
  | reading hpair =>
    exact ⟨.clearing hpair (readBytes_mirrors hN hpair.output hpair.outputText hb), rfl, hb⟩
  | @clearing pair pair' _ _ hpair hresult =>
    have hremoved := removeStaged_mirrors N hpair.source hb
    rw [Assembly.step, Assembly.step]
    cases job.cleanup with
    | false => exact ⟨.finished hresult, rfl, hb.files, hb.library, hb.names⟩
    | true =>
      rw [if_pos rfl, if_pos rfl]
      generalize removeStaged pair.source b = x at hremoved ⊢
      generalize removeStaged pair'.source b' = x' at hremoved ⊢
      obtain ⟨removed, c⟩ := x
      obtain ⟨removed', c'⟩ := x'
      obtain ⟨hagree, hc⟩ := hremoved
      dsimp only at hagree hc
      cases hagree with
      | ok => exact ⟨.clearingOutput hpair hresult, rfl, hc⟩
      | error hfault => exact ⟨.finished (.error hfault), rfl, hc⟩
  | @clearingOutput pair pair' _ _ hpair hresult =>
    have hremoved := removeStaged_mirrors N hpair.output hb
    rw [Assembly.step, Assembly.step]
    generalize removeStaged pair.output b = x at hremoved ⊢
    generalize removeStaged pair'.output b' = x' at hremoved ⊢
    obtain ⟨removed, c⟩ := x
    obtain ⟨removed', c'⟩ := x'
    obtain ⟨hagree, hc⟩ := hremoved
    dsimp only at hagree hc
    cases hagree with
    | ok => exact ⟨.finished hresult, rfl, hc⟩
    | error hfault => exact ⟨.finished (.error hfault), rfl, hc⟩
  | finished hresult => exact ⟨.finished hresult, rfl, hb⟩

/-! ## Whole assemblies -/

theorem Mirrors.advance (hN : Text.Unaltered N) (hjob : job.assembler = a)
    (hfix : ρ.Fixes a.directory) (n : Nat) {s s' : Phase × Bench}
    (h : Mirrors tool a ρ N k s s') :
    Mirrors tool a ρ N k (advance tool job n s) (advance tool job n s') := by
  induction n generalizing s s' with
  | zero => exact h
  | succ n ih =>
    rw [Assembly.advance, Assembly.advance, ← h.phase.expected_eq job]
    exact ih (h.step hN hjob hfix _)

/-- The names that an assembly has still to draw do not matter after it. -/
theorem Mirrors.after {s s' : Phase × Bench} (h : Mirrors tool a ρ N k s s') :
    s.2.Mirrors ρ (Twins tool a ρ N) k s'.2 := by
  obtain ⟨phase, b⟩ := s
  have hbench := h.bench
  cases phase with
  | opening | naming => exact hbench.weaken
  | _ => exact hbench

/-- **Two assemblies that go in step end alike.** -/
theorem assemble_mirrors (hN : Text.Unaltered N) (hjob : job.assembler = a)
    (hfix : ρ.Fixes a.directory) (hb : b.Mirrors ρ (Twins tool a ρ N) (k + 1) b') :
    Agree (Fault.SameBut N) ((assemble tool job).run.run b).1 ((assemble tool job).run.run b').1 ∧
      ((assemble tool job).run.run b).2.Mirrors ρ (Twins tool a ρ N) k
        ((assemble tool job).run.run b').2 := by
  have hfresh : Mirrors tool a ρ N k (fresh b) (fresh b') :=
    ⟨.opening, rfl, hb.files, hb.library, hb.names⟩
  have hlaunched := hfresh.advance hN hjob hfix stepsToLaunch
  have hwhole := hlaunched.advance hN hjob hfix
    (advance tool job stepsToLaunch (fresh b)).1.remaining
  have hremaining := hlaunched.phase.remaining_eq
  rw [← complete, hremaining, ← complete, ← whole, ← whole] at hwhole
  rw [run_assemble, run_assemble]
  dsimp only
  exact ⟨hwhole.phase.result, hwhole.after⟩

end

end Assembly

/-! ## Names -/

/-- A name that leads to no other directory, and that messages do not alter. -/
structure Namer.Simple (name : String) : Prop where
  noSlash : '/' ∉ name.toList
  shown : Text.ShowsAsItself name.toList

/-- Letters, digits and dashes make a simple name. -/
theorem Namer.simple_of_isAlphanum {name : String} (hne : name ≠ "")
    (h : (name.toList.all fun c => c.isAlphanum || c == '-') = true) : Simple name := by
  have hchars : ∀ c ∈ name.toList, c.isAlphanum = true ∨ c = '-' := by
    intro c hc
    simpa using List.all_eq_true.mp h c hc
  exact
    { noSlash := fun hmem => absurd (hchars '/' hmem) (by decide)
      shown := ⟨mt String.toList_eq_nil_iff.mp hne,
        fun c hc => Text.isPlain_of_isAlphanum (hchars c hc)⟩ }

/-- The renaming takes the files under the one name to the files under the other one. -/
structure Renaming.Takes (ρ : Renaming) (n m : String) : Prop where
  source : ρ.map (n ++ ".wat") = m ++ ".wat"
  output : ρ.map (n ++ ".wasm") = m ++ ".wasm"
  simple : Namer.Simple n
  simple' : Namer.Simple m

/-- The tool does the same under both names. -/
def Tool.Uniform (tool : Tool) (a : Assembler) (ρ : Renaming) (N : List Char → List Char → Prop)
    (n m : String) : Prop :=
  ∀ ⦃job : Assembly.Job⦄ ⦃t t' : FileTree⦄, job.assembler = a → t.Mirrors ρ t' →
    Launch.Mirrors ρ N (tool (job.argv (.under a.directory n)) t)
      (tool (job.argv (.under a.directory m)) t')

namespace Assembly

variable {tool : Tool} {a : Assembler} {ρ : Renaming} {N : List Char → List Char → Prop}
  {n m : String}

/-- The path of a file under a simple name. -/
theorem join_simple (directory : Path) (h : Namer.Simple n) {ext : String}
    (hext : Path.Extension ext) :
    directory.join (.ofString (n ++ ext)) = ⟨directory.anchor, directory.names ++ [n ++ ext]⟩ := by
  have hproper : Path.ProperName (n ++ ext) :=
    ⟨hext.append_ne n (by decide), hext.append_ne n (by decide),
      (Path.Extension.append h.noSlash hext).noSlash⟩
  rw [Path.ofString_of_properName hproper]
  rfl

/-- A file under the one name has its counterpart under the other one. -/
theorem path_join_simple {directory : Path} (hfix : ρ.Fixes directory) (hn : Namer.Simple n)
    (hm : Namer.Simple m) {ext : String} (hext : Path.Extension ext)
    (hmap : ρ.map (n ++ ext) = m ++ ext) :
    directory.join (.ofString (m ++ ext)) = ρ.path (directory.join (.ofString (n ++ ext))) := by
  rw [join_simple directory hn hext, join_simple directory hm hext, Renaming.path]
  simp only [List.map_append, List.map_cons, List.map_nil, hmap, List.map_congr_left hfix,
    List.map_id']

/-- The texts of the two paths are the same but for the names. -/
theorem sameBut_join_simple (directory : Path) (hn : Namer.Simple n) (hm : Namer.Simple m)
    {ext : String} (hext : Path.Extension ext) (hname : N n.toList m.toList) :
    Text.SameBut N (directory.join (.ofString (n ++ ext))).text.toList
      (directory.join (.ofString (m ++ ext))).text.toList := by
  obtain ⟨front, hfront⟩ := Path.exists_text_concat directory.anchor directory.names
  rw [join_simple directory hn hext, join_simple directory hm hext, hfront, hfront]
  simp only [String.toList_append]
  exact (Text.SameBut.refl N _).append ((Text.SameBut.of_name hname).append (.refl N _))

/-- **Names that a renaming takes to each other are twins** if the tool does the same under both. -/
theorem twins_of_takes (hfix : ρ.Fixes a.directory) (h : ρ.Takes n m)
    (hname : N n.toList m.toList) (huniform : tool.Uniform a ρ N n m) : Twins tool a ρ N n m where
  source := path_join_simple hfix h.simple h.simple' (by decide) h.source
  output := path_join_simple hfix h.simple h.simple' (by decide) h.output
  sourceText := sameBut_join_simple a.directory h.simple h.simple' (by decide) hname
  outputText := sameBut_join_simple a.directory h.simple h.simple' (by decide) hname
  launch hjob htrees := huniform hjob htrees

/-- **The copying tool does the same under all names.** -/
theorem uniform_copying (hproper : a.directory.Proper) (hfix : ρ.Fixes a.directory)
    (h : ρ.Takes n m) : Tool.Uniform .copying a ρ N n m := by
  rintro job t t' rfl -
  have hpath : ∀ s, (job.assembler.directory.join (.ofString s)).Proper :=
    fun s => hproper.join (Path.proper_ofString s)
  have hsource : (Pair.under job.assembler.directory m).source
      = ρ.path (Pair.under job.assembler.directory n).source :=
    path_join_simple hfix h.simple h.simple' (by decide) h.source
  have houtput : (Pair.under job.assembler.directory m).output
      = ρ.path (Pair.under job.assembler.directory n).output :=
    path_join_simple hfix h.simple h.simple' (by decide) h.output
  rw [Tool.copying, Tool.copying, copyActs_argv (hpath _) (hpath _),
    copyActs_argv (hpath _) (hpath _), hsource, houtput]
  exact .started ⟨rfl, .cons (Act.mirrors_reading ρ _) (.cons (Act.mirrors_writing ρ _) .nil),
    .refl N _, rfl⟩

end Assembly

/-! ## Runs -/

namespace Execution

/-- **Runs under other names correspond.** -/
theorem correspondence_mirrors [Engine] (c : Call) {a : Assembler} {ρ : Renaming}
    {N : List Char → List Char → Prop} (hN : Text.Unaltered N) (hfix : ρ.Fixes a.directory)
    (hlibrary : ∀ path, ReadsLibrary c.settings path → ρ.Fixes path) :
    Correspondence c a (Bench.Mirrors ρ (Assembly.Twins c.tool a ρ N)) (Fault.SameBut N) where
  ofProgram _ := .refl N _
  ofEngine _ := .refl N _
  weaken h := h.weaken
  library h := h.library
  tell _ h := ⟨h.files, h.library, h.names⟩
  keep _ h := ⟨h.files, rfl, h.names⟩
  read hpath h := Assembly.readBytes_mirrors hN (hlibrary _ hpath).path_eq.symm (.refl N _) h
  assemble _ h := Assembly.assemble_mirrors hN rfl hfix h

end Execution

end StackLang
