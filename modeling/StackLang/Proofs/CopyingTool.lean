import StackLang.Proofs.Paths
import StackLang.Proofs.Staging

/-!
# The copying tool

An assembly whose tool copies its input gives back the text it was given, as long as its directory
can be used: the directory is there, and under the names that are drawn files can be made in it and
removed again. The assembly is followed phase by phase; of the bench, only files and namer are kept
track of.

An assembly neither makes nor removes a directory, so the directory can be used again afterwards
and the next names are as good as before.

## Main definitions

* `Assembly.Usable` — an assembler with a directory that is there
* `Assembly.Stageable` — a name for two files in a directory

## Main results

* `Assembly.assemble_copying` — one assembly with the copying tool
* `Assembly.handsBack_copying` — any number of them
-/

namespace StackLang

namespace Assembly

open FileTree (PlainName SameLayout hasNul)

/-! ## Files that can be staged -/

/-- The directory of the assembler is there, and a tool can be started and run for a while. -/
structure Usable (a : Assembler) (t : FileTree) (base : Location) : Prop where
  proper : a.directory.Proper
  command : a.command.any hasNul = false
  patient : a.timeout.isInstant = false
  located : t.reach a.directory = .ok base
  directory : t.get? base = some .directory

/-- Two files can be staged under the name. -/
structure Stageable (t : FileTree) (base : Location) (name : String) : Prop where
  source : PlainName (name ++ ".wat")
  output : PlainName (name ++ ".wasm")
  sourceFree : t.takesFile (base ++ [name ++ ".wat"]) = true
  outputFree : t.takesFile (base ++ [name ++ ".wasm"]) = true

instance (t : FileTree) (base : Location) (name : String) : Decidable (Stageable t base name) :=
  decidable_of_iff
    (PlainName (name ++ ".wat") ∧ PlainName (name ++ ".wasm") ∧
      t.takesFile (base ++ [name ++ ".wat"]) = true ∧
      t.takesFile (base ++ [name ++ ".wasm"]) = true)
    ⟨fun h => ⟨h.1, h.2.1, h.2.2.1, h.2.2.2⟩,
      fun h => ⟨h.source, h.output, h.sourceFree, h.outputFree⟩⟩

theorem Usable.congr {a : Assembler} {t t' : FileTree} {base : Location} (h : Usable a t base)
    (hsame : SameLayout t t') : Usable a t' base :=
  { h with
    located := hsame.reach h.located
    directory := (hsame.directory base).mp h.directory }

theorem Stageable.congr {t t' : FileTree} {base : Location} {name : String}
    (h : Stageable t base name) (hsame : SameLayout t t') : Stageable t' base name :=
  { h with
    sourceFree := hsame.takesFile h.sourceFree
    outputFree := hsame.takesFile h.outputFree }

/-- The files of an assembly are names in its directory. -/
theorem Pair.under_eq (directory : Path) {name : String} (hsource : PlainName (name ++ ".wat"))
    (houtput : PlainName (name ++ ".wasm")) :
    Pair.under directory name =
      ⟨⟨directory.anchor, directory.names ++ [name ++ ".wat"]⟩,
        ⟨directory.anchor, directory.names ++ [name ++ ".wasm"]⟩⟩ := by
  rw [Pair.under, Path.ofString_of_properName hsource.toProperName,
    Path.ofString_of_properName houtput.toProperName]
  rfl

/-- The locations of two staged files, and what is there before anything is written. -/
structure Staged (t : FileTree) (pair : Pair) (source output : Location) : Prop where
  sourceAt : t.locate pair.source = .ok source
  outputAt : t.locate pair.output = .ok output
  distinct : output ≠ source
  sourceProper : pair.source.Proper
  outputProper : pair.output.Proper
  sourceFree : t.takesFile source = true
  outputFree : t.takesFile output = true

theorem Usable.staged {a : Assembler} {t : FileTree} {base : Location} {name : String}
    (h : Usable a t base) (hname : Stageable t base name) :
    Staged t (Pair.under a.directory name) (base ++ [name ++ ".wat"])
      (base ++ [name ++ ".wasm"]) := by
  have hdistinct : name ++ ".wasm" ≠ name ++ ".wat" := by
    intro heq
    have hlength := congrArg String.length heq
    rw [String.length_append, String.length_append] at hlength
    exact absurd (Nat.add_left_cancel hlength) (by decide)
  have hproper : ∀ {n}, Path.ProperName n →
      Path.Proper ⟨a.directory.anchor, a.directory.names ++ [n]⟩ := by
    intro n hn m hm
    rcases List.mem_append.mp hm with hm | hm
    · exact h.proper m hm
    · exact List.mem_singleton.mp hm ▸ hn
  rw [Pair.under_eq _ hname.source hname.output]
  exact
    { sourceAt := FileTree.locate_child h.located h.directory hname.source
      outputAt := FileTree.locate_child h.located h.directory hname.output
      distinct := fun heq => hdistinct (List.append_cancel_left heq |> List.singleton_inj.mp)
      sourceProper := hproper hname.source.toProperName
      outputProper := hproper hname.output.toProperName
      sourceFree := hname.sourceFree
      outputFree := hname.outputFree }

/-- The command line of a tool for files that can be found holds no null character. -/
theorem hasNul_argv {t : FileTree} {job : Job} {pair : Pair} {source output : Location}
    (hsource : t.locate pair.source = .ok source) (houtput : t.locate pair.output = .ok output)
    (hcommand : job.assembler.command.any hasNul = false) :
    (job.argv pair).any hasNul = false := by
  have hoption : hasNul "-o" = false := rfl
  rw [Job.argv, List.any_append, hcommand]
  simp [FileTree.hasNul_of_locate hsource, FileTree.hasNul_of_locate houtput, hoption]

/-! ## Phases -/

/-- The phase that an assembly has reached, and what it has made of files and namer. -/
structure At (s : Phase × Bench) (phase : Phase) (files : FileTree) (namer : Namer) : Prop where
  phase : s.1 = phase
  files : s.2.files = files
  namer : s.2.namer = namer

/-- The next step of an assembly that is left to itself. -/
def next (tool : Tool) (job : Job) (s : Phase × Bench) : Phase × Bench :=
  step tool job (expected job s.1) s

theorem advance_launch (tool : Tool) (job : Job) (s : Phase × Bench) :
    advance tool job stepsToLaunch s =
      next tool job (next tool job (next tool job (next tool job s))) := rfl

theorem advance_seven (tool : Tool) (job : Job) (s : Phase × Bench) :
    advance tool job 7 s = next tool job (next tool job (next tool job (next tool job
      (next tool job (next tool job (next tool job s)))))) := rfl

namespace At

variable (tool : Tool) (job : Job) {s : Phase × Bench} {t t' : FileTree} {namer : Namer}
  {pair : Pair}

theorem opening (h : At s .opening t namer)
    (hdir : t.makeDirectories job.assembler.directory = (t', .ok ())) :
    At (next tool job s) .naming t' namer := by
  obtain ⟨phase, b⟩ := s
  obtain ⟨rfl, rfl, rfl⟩ := h
  simp only [next, step, openDirectory, hdir]
  exact ⟨rfl, rfl, rfl⟩

theorem naming (h : At s .naming t namer) :
    At (next tool job s) (.writing (Pair.under job.assembler.directory namer.draw.1)) t
      namer.draw.2 := by
  obtain ⟨phase, b⟩ := s
  obtain ⟨rfl, rfl, rfl⟩ := h
  exact ⟨rfl, rfl, rfl⟩

theorem writing (h : At s (.writing pair) t namer)
    {bytes : Bytes} (htext : job.text.encode = .ok bytes)
    (hwrite : t.write pair.source bytes = .ok t') :
    At (next tool job s) (.launching pair) t' namer := by
  obtain ⟨phase, b⟩ := s
  obtain ⟨rfl, rfl, rfl⟩ := h
  simp only [next, step, writeText, contents_of_encode htext, hwrite, htext]
  exact ⟨rfl, rfl, rfl⟩

theorem launching (h : At s (.launching pair) t namer)
    (hargv : (job.argv pair).any hasNul = false) {process : Process}
    (htool : tool (job.argv pair) t = .started process) :
    ∃ number, At (next tool job s) (.waiting pair number process) t namer := by
  obtain ⟨phase, b⟩ := s
  obtain ⟨rfl, rfl, rfl⟩ := h
  have hlaunch : step tool job (expected job (Phase.launching pair)) (.launching pair, b) =
      launch tool job pair b := rfl
  simp only [next, hlaunch, launch, hargv, htool]
  exact ⟨_, rfl, rfl, rfl⟩

theorem acting {number : Nat} {process : Process} {act : Act} {acts : List Act}
    (h : At s (.waiting pair number process) t namer)
    (hpatient : job.assembler.timeout.isInstant = false) (hacts : process.acts = act :: acts) :
    At (next tool job s)
      (.waiting pair number { process with memory := (act process.memory t).1, acts })
      (act process.memory t).2 namer := by
  obtain ⟨phase, b⟩ := s
  obtain ⟨rfl, rfl, rfl⟩ := h
  have hevent : expected job (.waiting pair number process) = .proceeds := by
    simp [expected, hpatient, hacts]
  simp only [next, hevent, step, proceed, hacts, Process.act]
  exact ⟨rfl, rfl, rfl⟩

theorem exiting {number : Nat} {process : Process} (h : At s (.waiting pair number process) t namer)
    (hpatient : job.assembler.timeout.isInstant = false) (hacts : process.acts = [])
    (hending : process.ending = .exited 0) : At (next tool job s) (.reading pair) t namer := by
  obtain ⟨phase, b⟩ := s
  obtain ⟨rfl, rfl, rfl⟩ := h
  have hevent : expected job (.waiting pair number process) = .proceeds := by
    simp [expected, hpatient, hacts, hending]
  simp only [next, hevent, step, proceed, hacts, hending]
  exact ⟨rfl, rfl, rfl⟩

theorem reading (h : At s (.reading pair) t namer) {bytes : Bytes}
    (hread : t.read pair.output = .ok bytes) :
    At (next tool job s) (.clearing pair (.ok bytes)) t namer := by
  obtain ⟨phase, b⟩ := s
  obtain ⟨rfl, rfl, rfl⟩ := h
  simp only [next, step, readBytes, hread]
  exact ⟨rfl, rfl, rfl⟩

theorem keeping {result : Except Fault Bytes} (h : At s (.clearing pair result) t namer)
    (hcleanup : job.cleanup = false) : At (next tool job s) (.finished result) t namer := by
  obtain ⟨phase, b⟩ := s
  obtain ⟨rfl, rfl, rfl⟩ := h
  simp only [next, step, hcleanup]
  exact ⟨rfl, rfl, rfl⟩

theorem clearing {result : Except Fault Bytes} (h : At s (.clearing pair result) t namer)
    (hcleanup : job.cleanup = true) (hremove : t.remove pair.source = .ok t') :
    At (next tool job s) (.clearingOutput pair result) t' namer := by
  obtain ⟨phase, b⟩ := s
  obtain ⟨rfl, rfl, rfl⟩ := h
  simp only [next, step, hcleanup, removeStaged, hremove]
  exact ⟨rfl, rfl, rfl⟩

theorem clearingOutput {result : Except Fault Bytes}
    (h : At s (.clearingOutput pair result) t namer) (hremove : t.remove pair.output = .ok t') :
    At (next tool job s) (.finished result) t' namer := by
  obtain ⟨phase, b⟩ := s
  obtain ⟨rfl, rfl, rfl⟩ := h
  simp only [next, step, removeStaged, hremove]
  exact ⟨rfl, rfl, rfl⟩

theorem finished {result : Except Fault Bytes} (h : At s (.finished result) t namer) :
    At (next tool job s) (.finished result) t namer := by
  obtain ⟨phase, b⟩ := s
  obtain ⟨rfl, rfl, rfl⟩ := h
  exact ⟨rfl, rfl, rfl⟩

end At

/-! ## Copying -/

theorem inputOf_argv {job : Job} {pair : Pair} (h : pair.source.Proper) :
    Tool.inputOf (job.argv pair) = pair.source := by
  have hword : (job.argv pair).reverse[2]? = some pair.source.text := by
    simp [Job.argv]
  rw [Tool.inputOf, hword]
  exact Path.ofString_text h

theorem outputOf_argv {job : Job} {pair : Pair} (h : pair.output.Proper) :
    Tool.outputOf (job.argv pair) = pair.output := by
  have hword : (job.argv pair).reverse[0]? = some pair.output.text := by
    simp [Job.argv]
  rw [Tool.outputOf, hword]
  exact Path.ofString_text h

theorem copyActs_argv {job : Job} {pair : Pair} (hsource : pair.source.Proper)
    (houtput : pair.output.Proper) :
    Tool.copyActs (job.argv pair) = [.reading pair.source, .writing pair.output] := by
  rw [Tool.copyActs, inputOf_argv hsource, outputOf_argv houtput]

/-- The four changes to the files: both are written with the same contents, and both are removed. -/
structure Copied (t : FileTree) (pair : Pair) (bytes : Bytes) (t₁ t₂ t₃ t₄ : FileTree) : Prop where
  writeSource : t.write pair.source bytes = .ok t₁
  readSource : t₁.read pair.source = .ok bytes
  writeOutput : t₁.write pair.output bytes = .ok t₂
  readOutput : t₂.read pair.output = .ok bytes
  removeSource : t₂.remove pair.source = .ok t₃
  removeOutput : t₃.remove pair.output = .ok t₄
  kept : SameLayout t t₂
  cleared : SameLayout t t₄

/-- Staged files can be written, copied and removed. -/
theorem Staged.copied {t : FileTree} {pair : Pair} {source output : Location}
    (h : Staged t pair source output) (bytes : Bytes) :
    ∃ t₁ t₂ t₃ t₄, Copied t pair bytes t₁ t₂ t₃ t₄ := by
  let t₁ := t.set source (.file bytes)
  let t₂ := t₁.set output (.file bytes)
  let t₃ := t₂.erase source
  have hsourceNe := (FileTree.free_of_takesFile h.sourceFree).ne_nil
  have houtputNe := (FileTree.free_of_takesFile h.outputFree).ne_nil
  have hsource₁ : t₁.get? source = some (.file bytes) := by
    rw [FileTree.get?_set t hsourceNe, if_pos rfl]
  have hsource₂ : t₂.get? source = some (.file bytes) := by
    rw [FileTree.get?_set t₁ houtputNe, if_neg (Ne.symm h.distinct), hsource₁]
  have houtput₂ : t₂.get? output = some (.file bytes) := by
    rw [FileTree.get?_set t₁ houtputNe, if_pos rfl]
  have houtput₃ : t₃.get? output = some (.file bytes) := by
    rw [FileTree.get?_erase t₂ hsourceNe, if_neg h.distinct, houtput₂]
  have hsame₁ : SameLayout t t₁ := .set (FileTree.free_of_takesFile h.sourceFree) bytes
  have htakes₁ : t₁.takesFile output = true := hsame₁.takesFile h.outputFree
  have hsame₂ : SameLayout t t₂ := hsame₁.trans (.set (FileTree.free_of_takesFile htakes₁) bytes)
  have hsame₃ : SameLayout t t₃ := hsame₂.trans (.erase (FileTree.free_of_file hsource₂))
  exact ⟨t₁, t₂, t₃, t₃.erase output,
    { writeSource := FileTree.write_of_locate h.sourceAt h.sourceFree bytes
      readSource := FileTree.read_of_locate (hsame₁.locate h.sourceAt) hsource₁
      writeOutput := FileTree.write_of_locate (hsame₁.locate h.outputAt) htakes₁ bytes
      readOutput := FileTree.read_of_locate (hsame₂.locate h.outputAt) houtput₂
      removeSource := FileTree.remove_of_locate (hsame₂.locate h.sourceAt) hsource₂
        (FileTree.isSealed_of_takesFile (hsame₂.takesFile h.sourceFree))
      removeOutput := FileTree.remove_of_locate (hsame₃.locate h.outputAt) houtput₃
        (FileTree.isSealed_of_takesFile (hsame₃.takesFile h.outputFree))
      kept := hsame₂
      cleared := hsame₃.trans (.erase (FileTree.free_of_file houtput₃)) }⟩

/-- The tool is started and copies the staged file. -/
theorem At.copying {job : Job} {s : Phase × Bench} {t t₁ t₂ t₃ t₄ : FileTree} {pair : Pair}
    {namer : Namer} {bytes : Bytes} {source output : Location}
    (h : At s (.launching pair) t₁ namer) (hstaged : Staged t pair source output)
    (hcopied : Copied t pair bytes t₁ t₂ t₃ t₄)
    (hcommand : job.assembler.command.any hasNul = false)
    (hpatient : job.assembler.timeout.isInstant = false) :
    (next .copying job s).1.remaining = 7 ∧
      At (next .copying job (next .copying job (next .copying job (next .copying job s))))
        (.reading pair) t₂ namer := by
  have hlaunch : Tool.copying (job.argv pair) t₁ =
      .started ⟨[], [.reading pair.source, .writing pair.output], [], .exited 0⟩ := by
    rw [Tool.copying, copyActs_argv hstaged.sourceProper hstaged.outputProper]
  have hread : Act.reading pair.source [] t₁ = (bytes, t₁) := by
    rw [Act.reading, hcopied.readSource]
  have hwrite : Act.writing pair.output bytes t₁ = (bytes, t₂) := by
    rw [Act.writing, hcopied.writeOutput]
  obtain ⟨number, hstarted⟩ := h.launching .copying job
    (hasNul_argv hstaged.sourceAt hstaged.outputAt hcommand) hlaunch
  refine ⟨by rw [hstarted.phase]; rfl, ?_⟩
  have hmemory := hstarted.acting .copying job hpatient rfl
  rw [hread] at hmemory
  have hwritten := hmemory.acting .copying job hpatient rfl
  rw [hwrite] at hwritten
  exact hwritten.exiting .copying job hpatient rfl rfl

/-- What was read is given back after the files were cleared, or kept. -/
theorem At.ending {job : Job} {s : Phase × Bench} {t t₁ t₂ t₃ t₄ : FileTree} {pair : Pair}
    {namer : Namer} {bytes : Bytes} (h : At s (.clearing pair (.ok bytes)) t₂ namer)
    (hcopied : Copied t pair bytes t₁ t₂ t₃ t₄) :
    ∃ t', At (next .copying job (next .copying job (next .copying job s)))
      (.finished (.ok bytes)) t' namer ∧ SameLayout t t' := by
  cases hcleanup : job.cleanup with
  | false =>
    have hkept := h.keeping .copying job hcleanup
    exact ⟨t₂, (hkept.finished .copying job).finished .copying job, hcopied.kept⟩
  | true =>
    have hcleared := h.clearing .copying job hcleanup hcopied.removeSource
    have hdone := hcleared.clearingOutput .copying job hcopied.removeOutput
    exact ⟨t₄, hdone.finished .copying job, hcopied.cleared⟩

/-- **The copying tool hands back the text**, and the directories stay as they are. -/
theorem assemble_copying (job : Job) {b : Bench} {base : Location}
    (h : Usable job.assembler b.files base) (hname : Stageable b.files base b.namer.draw.1)
    {bytes : Bytes} (htext : job.text.encode = .ok bytes) :
    ∃ b', (assemble .copying job).run.run b = (.ok bytes, b') ∧
      SameLayout b.files b'.files ∧ b'.namer = b.namer.draw.2 := by
  have hstaged := h.staged hname
  obtain ⟨t₁, t₂, t₃, t₄, hcopied⟩ := hstaged.copied bytes
  have hfresh : At (fresh b) .opening b.files b.namer := ⟨rfl, rfl, rfl⟩
  have hopened := hfresh.opening .copying job
    (FileTree.makeDirectories_of_reach h.located h.directory)
  have hwritten := (hopened.naming .copying job).writing .copying job htext hcopied.writeSource
  obtain ⟨hremaining, hexited⟩ := hwritten.copying hstaged hcopied h.command h.patient
  obtain ⟨t', hfinished, hsame⟩ := (hexited.reading .copying job hcopied.readOutput).ending hcopied
  have hwhole : At (whole .copying job b) (.finished (.ok bytes)) t' b.namer.draw.2 := by
    rw [whole, complete, advance_launch, hremaining, advance_seven]
    exact hfinished
  refine ⟨(whole .copying job b).2, ?_, ?_, hwhole.namer⟩
  · rw [run_assemble, hwhole.phase]
    rfl
  · rw [hwhole.files]
    exact hsame

/-- **Any number of assemblies** with the copying tool give back what they are given. -/
theorem handsBack_copying {a : Assembler} {cleanup : Bool} {count : Nat} {b : Bench}
    {base : Location} (h : Usable a b.files base)
    (hnames : ∀ name ∈ b.namer.drawMany count, Stageable b.files base name) :
    HandsBack .copying a cleanup count b := by
  induction count generalizing b with
  | zero => trivial
  | succ count ih =>
    intro text
    have hname := hnames _ List.mem_cons_self
    obtain ⟨b', hrun, hsame, hnamer⟩ := assemble_copying ⟨a, text, cleanup⟩ h hname
      (RawText.encode_ofString text)
    refine ⟨b', hrun, ih (h.congr hsame) fun name hmem => ?_⟩
    rw [hnamer] at hmem
    exact (hnames name (List.mem_cons_of_mem _ hmem)).congr hsame

end Assembly

end StackLang
