import StackLang.Proofs.Interleaving
import StackLang.Proofs.KeptLibrary

/-!
# Runs one after another

Runs on one assembler leave things behind: the counter has moved on, the library may be kept, and
files may be kept as well. This file shows that none of it reaches a later run. Each run ends as it
would have ended alone, on a bench on which nothing has happened yet.

The invariant names all three at once. After `k` assemblies the counter has moved by `k`; nothing
has changed outside the files under the first `k` names, so that the next name is still free and
every file that could be read at first is still read with the same contents; and a library that is
kept is the one that would be assembled now.

## Main definitions

* `Settings.supply` — the library that a bench has to offer to begin with
* `Execution.Steady` — the invariant

## Main results

* `Assembly.Progress.advance` — an assembly with a copying tool, left to itself
* `Execution.Steady.assemble` — an assembly among others hands back its text
* `Execution.Steady.run` — what one run keeps, and how it ends
* `Execution.runs_end_as_alone` — each run ends as it would have ended alone
-/

namespace StackLang

namespace Assembly

open FileTree (AgreeOff Grown SameLayout hasNul)

/-! ## An assembly left to itself -/

section

variable {tool : Tool} {job : Job} {pair : Pair} {place : Role → Location} {b b' b'' : Bench}
  {nodes : Role → Option FileNode} {turns : Nat} {phase : Phase}

theorem Tended.trans (h : Tended place b b') (h' : Tended place b' b'') : Tended place b b'' :=
  ⟨h'.namer.trans h.namer, h.agree.trans h'.agree, h.same.trans h'.same⟩

theorem Placed.congr {files files' : FileTree} (h : Placed files pair place)
    (hsame : SameLayout files files') : Placed files' pair place :=
  { h with
    located := fun r => hsame.locate (h.located r)
    takes := fun r => hsame.takesFile (h.takes r) }

/-- A copying tool is not stopped, if there is any time at all. -/
theorem Progress.expected_eq (h : Progress job pair nodes turns phase)
    (hpatient : job.assembler.timeout.isInstant = false) : expected job phase = .proceeds := by
  cases h with
  | started | recalled | transcribed => simp [expected, hpatient]
  | _ => rfl

/-- **An assembly with a copying tool, left to itself.** -/
theorem Progress.advance (h : Progress job pair (fun r => b.files.get? (place r)) turns phase)
    (hplaced : Placed b.files pair place) (htool : tool.Copies job.assembler.command)
    (hcommand : job.assembler.command.any hasNul = false)
    (hpatient : job.assembler.timeout.isInstant = false) (m : Nat) :
    Progress job pair (fun r => (advance tool job m (phase, b)).2.files.get? (place r)) (turns + m)
        (advance tool job m (phase, b)).1 ∧
      Tended place b (advance tool job m (phase, b)).2 := by
  induction m generalizing turns phase b with
  | zero => exact ⟨h, .of_files rfl rfl⟩
  | succ m ih =>
    obtain ⟨hnext, htended⟩ := h.step hplaced htool hcommand
    obtain ⟨hlast, hrest⟩ := ih hnext (hplaced.congr htended.same)
    rw [Assembly.advance, h.expected_eq hpatient, ← Nat.add_assoc, Nat.add_right_comm]
    exact ⟨hlast, htended.trans hrest⟩

end

theorem advance_add (tool : Tool) (job : Job) (m n : Nat) (s : Phase × Bench) :
    Assembly.advance tool job (m + n) s =
      Assembly.advance tool job n (Assembly.advance tool job m s) := by
  induction m generalizing s with
  | zero => rw [Nat.zero_add, Assembly.advance]
  | succ m ih => rw [Nat.succ_add, Assembly.advance, ih, Assembly.advance]

/-- **A whole assembly with a copying tool**, if nothing is there under the name that it draws. -/
theorem whole_copies {tool : Tool} {job : Job} {b : Bench} {files : FileTree}
    {place : Role → Location}
    (hopen : b.files.makeDirectories job.assembler.directory = (files, .ok ()))
    (hplaced : Placed files (Pair.under job.assembler.directory b.namer.draw.1) place)
    (hfree : ∀ r, files.get? (place r) = none) (htool : tool.Copies job.assembler.command)
    (hcommand : job.assembler.command.any hasNul = false)
    (hpatient : job.assembler.timeout.isInstant = false) :
    (assemble tool job).run.run b = (job.copied, (whole tool job b).2) ∧
      Tended place (named b files) (whole tool job b).2 := by
  let pair := Pair.under job.assembler.directory b.namer.draw.1
  have hbegun : Assembly.advance tool job 2 (fresh b) = (.writing pair, named b files) := by
    simp only [Assembly.advance, fresh, step, openDirectory, hopen, drawPair]
    rfl
  have hprogress : Progress job pair (fun r => (named b files).files.get? (place r)) 2
      (.writing pair) := .writing (hfree .source) (hfree .output)
  have hadvance := hprogress.advance hplaced htool hcommand hpatient
  -- two steps lead to the name, and two more to the running tool or past it
  obtain ⟨m, hwhole⟩ : ∃ m, whole tool job b =
      Assembly.advance tool job m (.writing pair, named b files) := by
    rw [whole, complete, stepsToLaunch, advance_add _ _ 2 2, hbegun, ← advance_add]
    exact ⟨_, rfl⟩
  obtain ⟨hfinished, htended⟩ := hadvance m
  rw [← hwhole] at hfinished htended
  refine ⟨?_, htended⟩
  rw [run_assemble, hfinished.result_eq (whole_finished tool job b)]

end Assembly

/-- A path that can be read leads to something. -/
theorem FileTree.exists_of_read {t : FileTree} {path : Path} {bytes : Bytes}
    (h : t.read path = .ok bytes) :
    ∃ loc node, t.reach path = .ok loc ∧ t.get? loc = some node := by
  cases hreach : t.reach path with
  | error e =>
    simp only [read, hreach, bind, Except.bind] at h
    cases h
  | ok loc =>
    cases hnode : t.get? loc with
    | none =>
      simp only [read, hreach, bind, Except.bind, hnode] at h
      cases h
    | some node => exact ⟨loc, node, rfl, hnode⟩

/-- The same is read where a path leads to the same. -/
theorem FileTree.read_congr {t t' : FileTree} {path : Path} {loc : Location}
    (hreach : t.reach path = .ok loc) (hreach' : t'.reach path = .ok loc)
    (hnode : t'.get? loc = t.get? loc) (hbodies : t'.bodies = t.bodies) :
    t'.read path = t.read path := by
  simp only [read, hreach, hreach', bind, Except.bind, hnode, body, hbodies]

/-- The library that a bench has to offer: the one that is set, or what a copying tool makes of its
text. -/
def Settings.supply (settings : Settings) (b : Bench) : Except Fault Bytes :=
  match settings.prebuiltLibrary? with
  | some path => Assembly.readBytes path b
  | none => Text.encode <$> Execution.sourceText b settings.librarySource

/-- Without a library that is set, the text is what counts. -/
theorem Settings.exists_sourceText {settings : Settings} {b : Bench} {library : Bytes}
    (hunset : settings.prebuiltLibrary? = none) (h : settings.supply b = .ok library) :
    ∃ text, Execution.sourceText b settings.librarySource = .ok text ∧
      library = Text.encode text := by
  rw [supply, hunset] at h
  cases htext : Execution.sourceText b settings.librarySource with
  | error f =>
    rw [htext] at h
    cases h
  | ok text =>
    rw [htext] at h
    exact ⟨text, rfl, (Except.ok.inj h).symm⟩

theorem Assembly.readBytes_fault {path : Path} {b : Bench} {f : Fault}
    (h : readBytes path b = .error f) : f = .nul ∨ ∃ cause, f = .artifact "read" path cause := by
  rw [readBytes] at h
  split at h
  · cases h
  · obtain rfl := Except.error.inj h
    next e _ =>
      cases e with
      | nul => exact .inl rfl
      | os e => exact .inr ⟨_, rfl⟩

theorem Settings.sourceText_of_supply_error {settings : Settings} {b : Bench} {f : Fault}
    (hunset : settings.prebuiltLibrary? = none) (h : settings.supply b = .error f) :
    Execution.sourceText b settings.librarySource = .error f := by
  rw [supply, hunset] at h
  cases htext : Execution.sourceText b settings.librarySource with
  | error g =>
    rw [htext] at h
    rw [Except.error.inj h]
  | ok text =>
    rw [htext] at h
    cases h

/-- A library that cannot be had is neither a fault of a program nor a trap. -/
theorem Settings.supply_fault {settings : Settings} {b : Bench} {f : Fault}
    (h : settings.supply b = .error f) : f.isProgramFault = false ∧ ∀ cause, f ≠ .trap cause := by
  have hread : ∀ {path}, Assembly.readBytes path b = .error f →
      f.isProgramFault = false ∧ ∀ cause, f ≠ .trap cause := by
    intro path hpath
    rcases Assembly.readBytes_fault hpath with rfl | ⟨cause, rfl⟩ <;> exact ⟨rfl, by simp⟩
  cases hset : settings.prebuiltLibrary? with
  | some path =>
    rw [supply, hset] at h
    exact hread h
  | none =>
    have htext := sourceText_of_supply_error hset h
    cases hsource : settings.librarySource with
    | bundled =>
      rw [hsource] at htext
      cases htext
    | file path =>
      rw [hsource, Execution.sourceText] at htext
      cases hbytes : Assembly.readBytes path b with
      | error g =>
        rw [hbytes] at htext
        obtain rfl := Except.error.inj htext
        exact hread hbytes
      | ok bytes =>
        simp only [hbytes, bind, Except.bind] at htext
        split at htext
        · cases htext
        · obtain rfl := Except.error.inj htext
          exact ⟨rfl, by simp⟩

namespace Execution

open Assembly (Workshop Vacant)
open FileTree (AgreeOff Grown SameLayout hasNul)

/-! ## A run alone -/

namespace Call

/-- If the run needs a library, then the bench has one to offer. -/
def FindsLibrary (c : Call) (b : Bench) : Prop :=
  ∀ p, Program.compile c.tokens = .ok p → p.needsLibrary = true →
    ∃ library, c.settings.supply b = .ok library

/-- How the run ends if its assemblies hand back what they are given. -/
def outcome [Engine] (c : Call) (b : Bench) : Except Fault (Option Value) := do
  let p ← Program.compile c.tokens
  let library ← if p.needsLibrary then some <$> c.settings.supply b else pure none
  let linked ← link (Text.encode p.text) library (some p)
  compute linked c.inputs

/-- How many assemblies the run may take. -/
def demand (c : Call) : Nat :=
  match Program.compile c.tokens with
  | .error _ => 0
  | .ok p => if p.needsLibrary ∧ c.settings.prebuiltLibrary? = none then 2 else 1

variable {c : Call} {a : Assembler} {b : Bench} {p : Program} {f : Fault}

theorem exists_of_not_findsLibrary (h : ¬ c.FindsLibrary b) :
    ∃ p f, Program.compile c.tokens = .ok p ∧ p.needsLibrary = true ∧
      c.settings.supply b = .error f := by
  simp only [FindsLibrary, not_forall] at h
  obtain ⟨p, hp, hneeds, hnone⟩ := h
  cases hsupply : c.settings.supply b with
  | error f => exact ⟨p, f, hp, hneeds, rfl⟩
  | ok library => exact absurd ⟨library, hsupply⟩ hnone

theorem outcome_of_plain [Engine] (hp : Program.compile c.tokens = .ok p)
    (hneeds : p.needsLibrary = false) :
    c.outcome b = (do
      let linked ← link (Text.encode p.text) none (some p)
      compute linked c.inputs) := by
  rw [outcome, hp]
  simp only [bind, Except.bind, hneeds]
  rfl

theorem outcome_of_supplied [Engine] {library : Bytes} (hp : Program.compile c.tokens = .ok p)
    (hneeds : p.needsLibrary = true) (hsupply : c.settings.supply b = .ok library) :
    c.outcome b = (do
      let linked ← link (Text.encode p.text) (some library) (some p)
      compute linked c.inputs) := by
  rw [outcome, hp]
  simp only [bind, Except.bind, hneeds, hsupply]
  rfl

theorem demand_of_plain (hp : Program.compile c.tokens = .ok p) (hneeds : p.needsLibrary = false) :
    c.demand = 1 := by
  rw [demand, hp]
  simp [hneeds]

theorem demand_of_needs (hp : Program.compile c.tokens = .ok p) (hneeds : p.needsLibrary = true) :
    c.demand = if c.settings.prebuiltLibrary? = none then 2 else 1 := by
  rw [demand, hp]
  simp [hneeds]

/-- **How many assemblies a run takes**: no more than that. -/
theorem assemblies_run [Engine] (c : Call) (a : Assembler) (b : Bench) :
    b.assemblies ≤ (c.run a b).2.assemblies ∧
      (c.run a b).2.assemblies ≤ b.assemblies + c.demand := by
  cases hp : Program.compile c.tokens with
  | error f =>
    rw [run_of_uncompiled hp]
    exact ⟨Nat.le_refl _, Nat.le_add_right _ _⟩
  | ok p =>
    cases hneeds : p.needsLibrary with
    | false =>
      rw [(run_books_of_plain hp hneeds b).2, demand_of_plain hp hneeds]
      exact ⟨Nat.le_succ _, Nat.le_refl _⟩
    | true =>
      have hbooks := (c.load_loads a (compiled p b)).books
      rcases hload : c.load a (compiled p b) with ⟨f | bytes, after⟩ <;> rw [hload] at hbooks
      · rw [run_of_unloaded hp hneeds hload, demand_of_needs hp hneeds]
        rcases hbooks with ⟨-, hcount⟩ | ⟨hunset, -, -, hcount⟩ <;> rw [hcount, compiled]
        · exact ⟨Nat.le_refl _, Nat.le_add_right _ _⟩
        · rw [if_pos hunset]
          exact ⟨Nat.le_succ _, Nat.le_succ _⟩
      · rw [(run_books_of_loaded hp hneeds hload).2, demand_of_needs hp hneeds]
        rcases hbooks with ⟨-, hcount⟩ | ⟨hunset, -, -, hcount⟩ <;> rw [hcount, compiled]
        · exact ⟨Nat.le_succ _, Nat.add_le_add_left (by split <;> decide) _⟩
        · rw [if_pos hunset]
          exact ⟨Nat.le_add_right _ 2, Nat.le_refl _⟩

/-- A run that finds no library ends where it looks for it. -/
theorem run_of_unsupplied [Engine] (hp : Program.compile c.tokens = .ok p)
    (hneeds : p.needsLibrary = true) (hfresh : b.library = none)
    (hsupply : c.settings.supply b = .error f) : (c.run a b).1 = .error f := by
  cases hset : c.settings.prebuiltLibrary? with
  | some path =>
    have hread : Assembly.readBytes path (compiled p b) = .error f := by
      rwa [Settings.supply, hset] at hsupply
    have hload := load_of_set (a := a) hset (compiled p b)
    rw [hread] at hload
    rw [run_of_unloaded hp hneeds hload]
  | none =>
    have htext : sourceText (compiled p b) c.settings.librarySource = .error f :=
      Settings.sourceText_of_supply_error hset hsupply
    rw [run_of_unloaded hp hneeds (load_of_unread hset hfresh htext)]

end Call

/-! ## Rows of runs -/

theorem runAll_append [Engine] (a : Assembler) (before after : List Call) (b : Bench) :
    runAll a (before ++ after) b = runAll a after (runAll a before b) := List.foldl_append

theorem runAll_cons [Engine] (a : Assembler) (c : Call) (calls : List Call) (b : Bench) :
    runAll a (c :: calls) b = runAll a calls (c.run a b).2 := rfl

theorem assemblies_le_runAll [Engine] (a : Assembler) (calls : List Call) (b : Bench) :
    b.assemblies ≤ (runAll a calls b).assemblies := by
  induction calls generalizing b with
  | nil => exact Nat.le_refl _
  | cons c calls ih => exact Nat.le_trans (c.assemblies_run a b).1 (ih _)

/-! ## The invariant -/

/-- What runs have made of the bench `b` with `k` assemblies in a workshop. -/
structure Steady (w : Workshop) (settings : Settings) (b : Bench) (k : Nat) (now : Bench) :
    Prop where
  count : now.assemblies = b.assemblies + k
  namer : now.namer = .counter w.stem (w.first + k)
  /-- Once the directory is there, nothing differs but the files under the first `k` names. -/
  opens : ∃ files, now.files.makeDirectories w.assembler.directory = (files, .ok ()) ∧
    SameLayout w.files files ∧
    AgreeOff (fun loc => ∃ j r, j < k ∧ loc = w.place j r) w.files files
  reads : ∀ path bytes, b.files.read path = .ok bytes → now.files.read path = .ok bytes
  kept : ∀ bytes, now.library = some bytes →
    0 < k ∧ ∀ library, settings.supply b = .ok library → bytes = library

namespace Steady

variable {w : Workshop} {settings : Settings} {b now now' : Bench} {k n : Nat} {tool : Tool}

theorem congr (h : Steady w settings b k now) (hfiles : now'.files = now.files)
    (hnamer : now'.namer = now.namer) (hlibrary : now'.library = now.library)
    (hcount : now'.assemblies = now.assemblies) : Steady w settings b k now' where
  count := hcount.trans h.count
  namer := hnamer.trans h.namer
  opens := hfiles ▸ h.opens
  reads := hfiles ▸ h.reads
  kept := hlibrary ▸ h.kept

/-- At the beginning nothing has happened. -/
theorem init (hnamer : b.namer = .counter w.stem w.first) (hfresh : b.library = none)
    (hmade : b.files.makeDirectories w.assembler.directory = (w.files, .ok ())) :
    Steady w settings b 0 b where
  count := rfl
  namer := by rw [hnamer, Int.natCast_zero, Int.add_zero]
  opens := ⟨w.files, hmade, .refl _, .refl _ _⟩
  reads _ _ h := h
  kept bytes h := by cases hfresh.symm.trans h

/-- What could be read at first is not at a place that an assembly was given, since nothing was
there. -/
theorem read_of_agree (hready : w.Ready n tool) (hk : k ≤ n)
    (hgrown : Grown w.assembler.directory b.files w.files) {files : FileTree}
    (hsame : SameLayout w.files files)
    (hagree : AgreeOff (fun loc => ∃ j r, j < k ∧ loc = w.place j r) w.files files) {path : Path}
    {bytes : Bytes} (hread : b.files.read path = .ok bytes) : files.read path = .ok bytes := by
  obtain ⟨loc, node, hreach, hnode⟩ := FileTree.exists_of_read hread
  have hstill : w.files.get? loc = some node := by
    rcases hgrown.get? loc with heq | ⟨hnone, -⟩
    · rw [heq, hnode]
    · cases hnode.symm.trans hnone
  have hbodies : files.bodies = b.files.bodies := hagree.bodies.trans hgrown.bodies
  rw [FileTree.read_congr hreach (hsame.reach (hgrown.reach hreach)) ?_ hbodies, hread]
  rw [hagree.get? loc, hstill, hnode]
  rintro ⟨j, r, hj, rfl⟩
  cases hstill.symm.trans (hready.located (Nat.lt_of_lt_of_le hj hk) r).2.1

/-- **An assembly among others hands back its text**, and leaves the bench as steady as it was. -/
theorem assemble {job : Assembly.Job} (h : Steady w settings b k now) (hready : w.Ready n tool)
    (hgrown : Grown w.assembler.directory b.files w.files)
    (hpatient : w.assembler.timeout.isInstant = false) (hjob : job.assembler = w.assembler)
    (hk : k < n) :
    ∃ after, (Assembly.assemble tool job).run.run now = (job.copied, after) ∧
      Steady w settings b (k + 1) after := by
  obtain ⟨files, hopen, hsame, hagree⟩ := h.opens
  have hfree : ∀ r, files.get? (w.place k r) = none := by
    intro r
    rw [hagree.get?, (hready.located hk r).2.1]
    rintro ⟨j, r', hj, heq⟩
    exact absurd (hready.place_inj hk (Nat.lt_trans hj hk) heq).1 (Nat.ne_of_gt hj)
  have hdrawn : Assembly.Pair.under job.assembler.directory now.namer.draw.1 = w.pair k := by
    rw [hjob, h.namer]
    rfl
  obtain ⟨hrun, htended⟩ := Assembly.whole_copies (hjob ▸ hopen)
    (hdrawn ▸ hready.placed hk hsame) hfree (hjob ▸ hready.copies) (hjob ▸ hready.command)
    (hjob ▸ hpatient)
  obtain ⟨hlibrary, hcount⟩ := Assembly.assemble_books hrun
  have hsame' := hsame.trans htended.same
  have hagree' : AgreeOff (fun loc => ∃ j r, j < k + 1 ∧ loc = w.place j r) w.files
      (Assembly.whole tool job now).2.files := by
    refine (hagree.mono ?_).trans (htended.agree.mono ?_)
    · rintro loc ⟨j, r, hj, hloc⟩
      exact ⟨j, r, Nat.lt_succ_of_lt hj, hloc⟩
    · rintro loc ⟨r, hloc⟩
      exact ⟨k, r, Nat.lt_succ_self k, hloc⟩
  refine ⟨_, hrun, ?_, ?_, ⟨_, hready.found _ hsame', hsame', hagree'⟩, ?_, ?_⟩
  · rw [hcount, h.count, Nat.add_assoc]
  · rw [htended.namer, Assembly.named, h.namer, Int.natCast_succ, ← Int.add_assoc]
    rfl
  · exact fun path bytes => read_of_agree hready hk hgrown hsame' hagree'
  · intro bytes hbytes
    exact ⟨Nat.succ_pos k, (h.kept bytes (hlibrary ▸ hbytes)).2⟩

theorem readBytes (h : Steady w settings b k now) {path : Path} {bytes : Bytes}
    (hread : Assembly.readBytes path b = .ok bytes) : Assembly.readBytes path now = .ok bytes := by
  rw [Assembly.readBytes] at hread ⊢
  cases hfile : b.files.read path with
  | error e =>
    rw [hfile] at hread
    cases hread
  | ok content => rwa [h.reads path content hfile, ← hfile]

theorem sourceText (h : Steady w settings b k now) {source : LibrarySource} {text : String}
    (htext : Execution.sourceText b source = .ok text) :
    Execution.sourceText now source = .ok text := by
  cases source with
  | bundled => exact htext
  | file path =>
    rw [Execution.sourceText] at htext ⊢
    cases hread : Assembly.readBytes path b with
    | error f =>
      rw [hread] at htext
      cases htext
    | ok bytes => rwa [h.readBytes hread, ← hread]

/-- A library can be kept if it is the one that the bench had to offer. -/
theorem keep (h : Steady w settings b k now) (hk : 0 < k) {bytes : Bytes}
    (hbytes : ∀ library, settings.supply b = .ok library → bytes = library) :
    Steady w settings b k { now with library := some bytes } :=
  { h with
    kept := fun other hother => by
      obtain rfl := Option.some.inj hother
      exact ⟨hk, hbytes⟩ }

section

variable {c : Call} (h : Steady w c.settings b k now) (hready : w.Ready n c.tool)
  (hgrown : Grown w.assembler.directory b.files w.files)
  (hpatient : w.assembler.timeout.isInstant = false)
include h hready hgrown hpatient

/-- An assembly of a run, told by the bench that it leaves. -/
theorem of_assemble {text : String} {result : Except Fault Bytes} {after : Bench}
    (hrun : (Execution.assemble (c.session w.assembler) w.assembler c.cleanup text).run.run now =
      (result, after)) (hbound : after.assemblies ≤ b.assemblies + n) :
    result = .ok (Text.encode text) ∧ Steady w c.settings b (k + 1) after := by
  have hk : k < n := by
    have hcount := (Assembly.assemble_books hrun).2
    rw [h.count] at hcount
    omega
  let job : Assembly.Job := ⟨w.assembler, text, c.cleanup⟩
  have hjob : job.assembler = w.assembler := rfl
  obtain ⟨after', hrun', hsteady⟩ := h.assemble hready hgrown hpatient hjob hk
  obtain ⟨rfl, rfl⟩ := Prod.mk.inj (hrun.symm.trans hrun')
  refine ⟨?_, hsteady⟩
  rw [Assembly.Job.copied, RawText.encode_ofString]
  rfl

/-- **What loading the library keeps**, and that it gives what the bench had to offer. -/
theorem load {result : Except Fault Bytes} {after : Bench}
    (hload : c.load w.assembler now = (result, after))
    (hbound : after.assemblies ≤ b.assemblies + n) :
    ∃ k', Steady w c.settings b k' after ∧
      ∀ library, c.settings.supply b = .ok library →
        result = .ok library ∧ (c.settings.prebuiltLibrary? = none → 0 < k') := by
  have hloads := c.load_loads w.assembler now
  rw [hload] at hloads
  cases hloads with
  | prebuilt hset =>
    refine ⟨k, h.congr rfl rfl rfl rfl, fun library hsupply => ⟨?_, fun hunset => ?_⟩⟩
    · rw [Settings.supply, hset] at hsupply
      exact h.readBytes hsupply
    · cases hset.symm.trans hunset
  | kept hunset hkept =>
    obtain ⟨hk, hsame⟩ := h.kept _ hkept
    exact ⟨k, h, fun library hsupply => ⟨congrArg _ (hsame library hsupply), fun _ => hk⟩⟩
  | unread hunset hnone htext =>
    refine ⟨k, h, fun library hsupply => ?_⟩
    obtain ⟨text, htext', -⟩ := Settings.exists_sourceText hunset hsupply
    cases htext.symm.trans (h.sourceText htext')
  | failed hunset hnone htext hrun =>
    cases (h.of_assemble hready hgrown hpatient hrun hbound).1
  | @made text _ after hunset hnone htext hrun =>
    obtain ⟨hresult, hsteady⟩ := h.of_assemble hready hgrown hpatient hrun hbound
    obtain rfl := Except.ok.inj hresult
    have hsame : ∀ library, c.settings.supply b = .ok library → Text.encode text = library := by
      intro library hsupply
      obtain ⟨first, htext', rfl⟩ := Settings.exists_sourceText hunset hsupply
      rw [Except.ok.inj (htext.symm.trans (h.sourceText htext'))]
    refine ⟨k + 1, hsteady.keep (Nat.succ_pos k) hsame, fun library hsupply => ?_⟩
    exact ⟨congrArg _ (hsame library hsupply), fun _ => Nat.succ_pos k⟩

/-- What is left to do when the library is there gives what linking and calling give. -/
theorem finish [Engine] {p : Program} {library : Option Bytes}
    {result : Except Fault (Option Value)} {after : Bench}
    (hfinish : (c.finish w.assembler p library).run.run now = (result, after))
    (hbound : after.assemblies ≤ b.assemblies + n) :
    result = (do
        let linked ← link (Text.encode p.text) library (some p)
        Execution.compute linked c.inputs) ∧
      Steady w c.settings b (k + 1) after := by
  rcases hrun : (Execution.assemble (c.session w.assembler) w.assembler c.cleanup p.text).run.run
    now with ⟨binary, after'⟩
  rw [Call.run_finish hrun] at hfinish
  obtain ⟨rfl, rfl⟩ := Prod.mk.inj hfinish
  obtain ⟨rfl, hsteady⟩ := h.of_assemble hready hgrown hpatient hrun hbound
  exact ⟨rfl, hsteady⟩

/-- **What one run keeps, and how it ends**, if the bench had its library to offer. It has then
taken as many names as it would have taken alone, or others have taken some of them before. -/
theorem run [Engine] {result : Except Fault (Option Value)} {after : Bench}
    (hrun : c.run w.assembler now = (result, after))
    (hbound : after.assemblies ≤ b.assemblies + n) :
    ∃ k', Steady w c.settings b k' after ∧
      (c.FindsLibrary b → result = c.outcome b ∧ c.demand ≤ k') := by
  cases hp : Program.compile c.tokens with
  | error f =>
    rw [Call.run_of_uncompiled hp] at hrun
    obtain ⟨rfl, rfl⟩ := Prod.mk.inj hrun
    refine ⟨k, h, fun _ => ⟨?_, ?_⟩⟩
    · rw [Call.outcome, hp]
      rfl
    · rw [Call.demand, hp]
      exact Nat.zero_le k
  | ok p =>
    have hcompiled : Steady w c.settings b k (compiled p now) := h.congr rfl rfl rfl rfl
    cases hneeds : p.needsLibrary with
    | false =>
      rw [Call.run_of_plain hp hneeds] at hrun
      obtain ⟨hresult, hsteady⟩ := hcompiled.finish hready hgrown hpatient hrun hbound
      refine ⟨k + 1, hsteady, fun _ => ⟨?_, ?_⟩⟩
      · rw [hresult, Call.outcome_of_plain hp hneeds]
      · rw [Call.demand_of_plain hp hneeds]
        exact Nat.succ_pos k
    | true =>
      rcases hload : c.load w.assembler (compiled p now) with ⟨f | bytes, loaded⟩
      · rw [Call.run_of_unloaded hp hneeds hload] at hrun
        obtain ⟨rfl, rfl⟩ := Prod.mk.inj hrun
        obtain ⟨k', hsteady, hsupplied⟩ := hcompiled.load hready hgrown hpatient hload hbound
        refine ⟨k', hsteady, fun hfinds => ?_⟩
        obtain ⟨library, hsupply⟩ := hfinds p hp hneeds
        cases (hsupplied library hsupply).1
      · have hmore : after.assemblies = loaded.assemblies + 1 := by
          rw [← (Call.run_books_of_loaded hp hneeds hload).2, hrun]
        obtain ⟨k', hloaded, hsupplied⟩ := hcompiled.load hready hgrown hpatient hload (by omega)
        rw [Call.run_of_loaded hp hneeds hload] at hrun
        obtain ⟨hresult, hsteady⟩ := hloaded.finish hready hgrown hpatient hrun hbound
        refine ⟨k' + 1, hsteady, fun hfinds => ?_⟩
        obtain ⟨library, hsupply⟩ := hfinds p hp hneeds
        obtain ⟨hbytes, hpos⟩ := hsupplied library hsupply
        obtain rfl := Except.ok.inj hbytes
        refine ⟨?_, ?_⟩
        · rw [hresult, Call.outcome_of_supplied hp hneeds hsupply]
        · rw [Call.demand_of_needs hp hneeds]
          split
          · next hunset => exact Nat.succ_le_succ (hpos hunset)
          · exact Nat.succ_pos k'

/-- **A run ends as it would have ended alone.** Alone it takes no more names than there are: those
that it takes now, and if the library is kept, the one that was taken for it. -/
theorem run_eq_alone [Engine] (hinit : Steady w c.settings b 0 b)
    {result : Except Fault (Option Value)} {after : Bench}
    (hrun : c.run w.assembler now = (result, after))
    (hbound : after.assemblies ≤ b.assemblies + n) (hfinds : c.FindsLibrary b) :
    result = (c.run w.assembler b).1 := by
  obtain ⟨k', hafter, hends⟩ := h.run hready hgrown hpatient hrun hbound
  obtain ⟨hresult, hdemand⟩ := hends hfinds
  rcases halone : c.run w.assembler b with ⟨result', lone⟩
  have hmost : lone.assemblies ≤ b.assemblies + c.demand := by
    have hdemanded := (c.assemblies_run w.assembler b).2
    rwa [halone] at hdemanded
  have hcount := hafter.count
  obtain ⟨_, _, halike⟩ := hinit.run hready hgrown hpatient halone (by omega)
  exact hresult.trans (halike hfinds).1.symm

end

/-- **What a row of runs keeps.** -/
theorem runAll [Engine] {calls : List Call} (h : Steady w settings b k now)
    (hcalls : ∀ c ∈ calls, c.settings = settings ∧ w.Ready n c.tool)
    (hgrown : Grown w.assembler.directory b.files w.files)
    (hpatient : w.assembler.timeout.isInstant = false)
    (hbound : (Execution.runAll w.assembler calls now).assemblies ≤ b.assemblies + n) :
    ∃ k', Steady w settings b k' (Execution.runAll w.assembler calls now) := by
  induction calls generalizing k now with
  | nil => exact ⟨k, h⟩
  | cons c calls ih =>
    obtain ⟨rfl, hready⟩ := hcalls c List.mem_cons_self
    rcases hrun : c.run w.assembler now with ⟨result, after⟩
    rw [runAll_cons, hrun] at hbound ⊢
    have hmore := assemblies_le_runAll w.assembler calls after
    obtain ⟨k', hafter, -⟩ := h.run hready hgrown hpatient hrun (Nat.le_trans hmore hbound)
    exact ih hafter (fun d hd => hcalls d (List.mem_cons_of_mem c hd)) hbound

end Steady

/-- **Runs do not influence each other.** Any row of runs, with the same settings and one assembler
whose tool copies, goes on in a directory that can be used and holds none of the names that the row
draws; each run may keep its files or not. Then each run ends as the same run alone on the bench as
it was at first. The only exception is a run that alone ends because the library could not be read,
which is neither a fault of its program nor a trap. -/
theorem runs_end_as_alone [Engine] {a : Assembler} {settings : Settings} {calls : List Call}
    {b : Bench} {t : FileTree} {stem : String} {first : Int} {n : Nat}
    (hcalls : ∀ c ∈ calls, c.settings = settings ∧ c.tool.Copies a.command)
    (hcommand : a.command.any hasNul = false) (hproper : a.directory.Proper)
    (hpatient : a.timeout.isInstant = false) (hnamer : b.namer = .counter stem first)
    (hfresh : b.library = none) (hmade : b.files.makeDirectories a.directory = (t, .ok ()))
    (hcount : (runAll a calls b).assemblies = b.assemblies + n)
    (hvacant : ∀ name ∈ b.namer.drawMany n, Vacant t (Assembly.Pair.under a.directory name)) :
    (runAll a calls b).namer = .counter stem (first + n) ∧
      ∀ before c after, calls = before ++ c :: after →
        (c.run a (runAll a before b)).1 = (c.run a b).1 ∨
          ∃ f, (c.run a b).1 = .error f ∧ settings.supply b = .error f ∧
            f.isProgramFault = false ∧ ∀ cause, f ≠ .trap cause := by
  let w : Workshop := ⟨a, stem, first, t⟩
  have hready : ∀ c ∈ calls, c.settings = settings ∧ w.Ready n c.tool := by
    intro c hc
    obtain ⟨hsettings, hcopies⟩ := hcalls c hc
    refine ⟨hsettings, hcopies, hcommand, hproper, ?_, ?_⟩
    · exact fun files hsame => FileTree.makeDirectories_again hmade hsame
    · exact fun k hk => hvacant _ (hnamer ▸ Assembly.mem_drawMany_counter hk stem first)
  have hgrown : Grown a.directory b.files t := by
    have hgrows := FileTree.makeDirectories_grown b.files a.directory
    rwa [hmade] at hgrows
  have hinit : Steady w settings b 0 b := .init hnamer hfresh hmade
  refine ⟨?_, ?_⟩
  · obtain ⟨k, hsteady⟩ := hinit.runAll hready hgrown hpatient (Nat.le_of_eq hcount)
    have hk : k = n := Nat.add_left_cancel (hsteady.count.symm.trans hcount)
    rw [← hk]
    exact hsteady.namer
  · rintro before c after rfl
    obtain ⟨rfl, hcready⟩ := hready c (by simp)
    rcases hrun : c.run a (runAll a before b) with ⟨result, next⟩
    have hnext : next.assemblies ≤ b.assemblies + n := by
      rw [← hcount, runAll_append, runAll_cons, hrun]
      exact assemblies_le_runAll a after next
    have hstart : (runAll a before b).assemblies ≤ b.assemblies + n := by
      refine Nat.le_trans (c.assemblies_run a _).1 ?_
      rwa [hrun]
    obtain ⟨k, hsteady⟩ := hinit.runAll (fun d hd => hready d (List.mem_append_left _ hd)) hgrown
      hpatient hstart
    by_cases hfinds : c.FindsLibrary b
    · exact .inl (hsteady.run_eq_alone hcready hgrown hpatient hinit hrun hnext hfinds)
    · obtain ⟨p, f, hp, hneeds, hsupply⟩ := Call.exists_of_not_findsLibrary hfinds
      exact .inr ⟨f, Call.run_of_unsupplied hp hneeds hfresh hsupply, hsupply,
        Settings.supply_fault hsupply⟩

/-- Four runs: one that assembles the library and keeps its files, one that does not compile, one
that divides by zero, and one that finds the library kept. -/
theorem runs_end_as_alone_mixed :
    let library := "(module (func (export \"exponentiate\") (param i32 i32) (result i32) " ++
      "local.get 0 local.get 1 i32.add))"
    let a : Assembler := ⟨["tool", "copy"], .ofString "/work/out", .whole 30⟩
    let settings : Settings :=
      { assembler := "tool copy", timeout := .ofInt 30, artifactDir := "/work/out",
        libraryWasm := "", inputs := "665,1", logLevel := "WARNING",
        librarySource := .file (.ofString "/work/add.wat"), temporary := "/tmp" }
    let call : Bool → List String → Call := fun cleanup tokens =>
      ⟨settings, .scripted "tool", cleanup, tokens, (2, 5)⟩
    let calls := [call false ["p1", "p2", "cpow"], call true ["add"], call true ["p1", "0", "div"],
      call true ["p2", "p1", "cpow"]]
    let b : Bench :=
      { files :=
          { entries :=
              [(["work"], .directory), (["work", "add.wat"], .file (Text.encode library))] }
        namer := .counter "x" 9 }
    (runAll a calls b).assemblies = b.assemblies + 4 ∧
      b.namer.drawMany 4 = ["x-9", "x-10", "x-11", "x-12"] ∧
      (runAll a calls b).namer = .counter "x" 13 ∧
      ∀ before c after, calls = before ++ c :: after →
        (c.run a (runAll a before b)).1 = (c.run a b).1 := by
  have hrow : ∀ {a : Assembler} {b : Bench} {c₁ c₂ c₃ c₄ : Call} {p q r : Program} {f : Fault}
      {library : Bytes}, c₁.AssemblesLibrary a b (.ok library) → Program.compile c₁.tokens = .ok p →
      Program.compile c₂.tokens = .error f → Program.compile c₃.tokens = .ok q →
      q.needsLibrary = false → Program.compile c₄.tokens = .ok r → r.needsLibrary = true →
      c₄.settings.prebuiltLibrary? = none →
      (runAll a [c₁, c₂, c₃, c₄] b).assemblies = b.assemblies + 4 := by
    intro a b c₁ c₂ c₃ c₄ p q r f library hmakes hp hf hq hplain hr hneeds hunset
    obtain ⟨hkept, htwo, -⟩ := hmakes.run_of_ok hp
    obtain ⟨hstill, hthree⟩ := Call.run_books_of_plain (a := a) hq hplain (c₁.run a b).2
    have hfour := (Call.run_books_of_kept (a := a) hr hneeds hunset (hstill.trans hkept)).2
    rw [runAll_cons, runAll_cons, Call.run_of_uncompiled hf, runAll_cons, runAll_cons, runAll,
      List.foldl_nil, hfour, hthree, htwo]
  intro library a settings call calls b
  have hmade : b.files.makeDirectories a.directory =
      (b.files.set ["work", "out"] .directory, .ok ()) := by
    rw [show a.directory = ⟨.root, ["work", "out"]⟩ from rfl]
    dsimp only [b]
    rfl
  have hdrawn : b.namer.drawMany 4 = ["x-9", "x-10", "x-11", "x-12"] := by rfl
  have hvacant : ∀ name ∈ b.namer.drawMany 4, Vacant (b.files.set ["work", "out"] .directory)
      (Assembly.Pair.under a.directory name) := by
    rw [hdrawn]
    dsimp only [a, b]
    intro name hname r
    refine ⟨["work", "out", name ++ r.extension], ?_⟩
    simp only [List.mem_cons, List.not_mem_nil, or_false] at hname
    rcases hname with rfl | rfl | rfl | rfl <;> cases r <;> exact ⟨rfl, rfl, rfl⟩
  have hcalls : ∀ c ∈ calls, c.settings = settings ∧ c.tool.Copies a.command := by
    have htool : (Tool.scripted "tool").Copies a.command := Tool.copies_scripted (by decide)
    simp only [calls, List.mem_cons, List.not_mem_nil, or_false]
    rintro c (rfl | rfl | rfl | rfl) <;> exact ⟨rfl, htool⟩
  have hmakes : (call false ["p1", "p2", "cpow"]).AssemblesLibrary a b
      (.ok (Text.encode library)) := by
    refine ⟨_, rfl, rfl, ?_⟩
    dsimp only [call, settings, a, b, library]
    decide +kernel
  have hcount : (runAll a calls b).assemblies = b.assemblies + 4 :=
    hrow (f := .stackUnderflow 0 "add" 0) hmakes rfl rfl rfl rfl rfl rfl rfl
  have hcommand : a.command.any hasNul = false := by decide
  have hproper : a.directory.Proper := Path.proper_ofString _
  have hpatient : a.timeout.isInstant = false := by decide +kernel
  have hnamer : b.namer = .counter "x" 9 := rfl
  have hfresh : b.library = none := rfl
  obtain ⟨hlast, hall⟩ := runs_end_as_alone hcalls hcommand hproper hpatient hnamer hfresh hmade
    hcount hvacant
  refine ⟨hcount, hdrawn, hlast, fun before c after hsplit => ?_⟩
  rcases hall before c after hsplit with heq | ⟨f, -, hsupply, -⟩
  · exact heq
  · have hoffers : (settings.supply b).toOption.isSome = true := by
      dsimp only [settings, b, library]
      decide +kernel
    rw [hsupply] at hoffers
    cases hoffers

end Execution

end StackLang
