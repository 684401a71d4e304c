import StackLang.Execution

/-!
# Assemblies

What an assembly does depends on the files, the namer and the processes of the bench, and on
nothing else: the log, the kept library and the count of assemblies are written and never read.
So benches that agree on the first three are as good as each other, and what is told between two
assemblies makes no difference.

## Main definitions

* `Bench.Alike` — benches that agree on what assemblies look at
* `Assembly.named` — the bench of an assembly that has drawn its name
* `Assembly.HandsBack` — the next assemblies give back the texts they are given

## Main results

* `Assembly.step_alike` — one step from benches that are alike
* `Assembly.assemble_alike` — a whole assembly from benches that are alike
-/

namespace StackLang

/-- The benches agree on what assemblies look at. -/
structure Bench.Alike (b b' : Bench) : Prop where
  files : b.files = b'.files
  namer : b.namer = b'.namer
  processes : b.processes = b'.processes

namespace Assembly

/-- Phases that are equal, on benches that are alike. -/
def AlikeAt (s s' : Phase × Bench) : Prop := s.1 = s'.1 ∧ s.2.Alike s'.2

theorem removeStaged_alike {b b' : Bench} (h : b.Alike b') (path : Path) :
    (removeStaged path b).1 = (removeStaged path b').1 ∧
      (removeStaged path b).2.Alike (removeStaged path b').2 := by
  rw [removeStaged, removeStaged, h.files]
  cases b'.files.remove path with
  | ok files => exact ⟨rfl, rfl, h.namer, h.processes⟩
  | error e =>
    cases e with
    | nul => exact ⟨rfl, h⟩
    | os e =>
      refine ⟨rfl, ?_⟩
      dsimp only
      split
      · exact h
      · exact ⟨h.files, h.namer, h.processes⟩

/-- After a removal the assembly goes on to `next`, unless the path could not even be asked for. -/
theorem removed_alike {b b' : Bench} (h : b.Alike b') (path : Path) (next : Phase) :
    AlikeAt
      (match removeStaged path b with
        | (.ok (), b) => (next, b)
        | (.error f, b) => (.finished (.error f), b))
      (match removeStaged path b' with
        | (.ok (), b) => (next, b)
        | (.error f, b) => (.finished (.error f), b)) := by
  have hremoved := removeStaged_alike h path
  generalize removeStaged path b = r at hremoved
  generalize removeStaged path b' = r' at hremoved
  obtain ⟨result, c⟩ := r
  obtain ⟨result', c'⟩ := r'
  obtain ⟨rfl, halike⟩ := hremoved
  cases result <;> exact ⟨rfl, halike⟩

/-- Whether the tool runs is asked of the processes. -/
theorem abandon_alike {b b' : Bench} (h : b.Alike b') (pair : Pair) (number : Nat) (fault : Fault) :
    AlikeAt (abandon pair number fault b) (abandon pair number fault b') := by
  have halive : b.isAlive number = b'.isAlive number := by
    rw [Bench.isAlive, Bench.isAlive, h.processes]
  rw [abandon, abandon, halive]
  split
  · exact ⟨rfl, h⟩
  · exact ⟨rfl, h⟩

/-- **One step looks at no more than that.** -/
theorem step_alike (tool : Tool) (job : Job) (event : Event) {s s' : Phase × Bench}
    (h : AlikeAt s s') : AlikeAt (step tool job event s) (step tool job event s') := by
  obtain ⟨phase, ⟨files, namer, library, processes, log, assemblies⟩⟩ := s
  obtain ⟨phase', ⟨files', namer', library', processes', log', assemblies'⟩⟩ := s'
  obtain ⟨rfl, rfl, rfl, rfl⟩ := h
  cases phase with
  | opening =>
    simp only [step, openDirectory]
    rcases files.makeDirectories job.assembler.directory with ⟨files', _ | _⟩ <;>
      exact ⟨rfl, rfl, rfl, rfl⟩
  | naming => exact ⟨rfl, rfl, rfl, rfl⟩
  | writing pair =>
    simp only [step, writeText]
    cases files.write pair.source (contents job.text) with
    | error e => exact ⟨rfl, rfl, rfl, rfl⟩
    | ok files => cases job.text.encode <;> exact ⟨rfl, rfl, rfl, rfl⟩
  | launching pair =>
    simp only [step, launch]
    split
    · exact ⟨rfl, rfl, rfl, rfl⟩
    · simp only [Bench.tell]
      cases tool (job.argv pair) files <;> exact ⟨rfl, rfl, rfl, rfl⟩
  | waiting pair number process =>
    cases event with
    | proceeds =>
      simp only [step, proceed]
      split
      · exact ⟨rfl, rfl, rfl, rfl⟩
      · split <;> exact ⟨rfl, rfl, rfl, rfl⟩
    | exits =>
      simp only [step, exit]
      split <;> exact ⟨rfl, rfl, rfl, rfl⟩
    | timedOut | cancelled =>
      refine abandon_alike ?_ pair number _
      exact ⟨rfl, rfl, rfl⟩
  | killing pair number fault =>
    simp only [step, kill]
    split <;> exact ⟨rfl, rfl, rfl, rfl⟩
  | reading pair => exact ⟨rfl, rfl, rfl, rfl⟩
  | clearing pair result =>
    simp only [step]
    split
    · refine removed_alike ?_ pair.source (.clearingOutput pair result)
      exact ⟨rfl, rfl, rfl⟩
    · exact ⟨rfl, rfl, rfl, rfl⟩
  | clearingOutput pair result =>
    refine removed_alike ?_ pair.output (.finished result)
    exact ⟨rfl, rfl, rfl⟩
  | finished result => exact ⟨rfl, rfl, rfl, rfl⟩

theorem advance_alike (tool : Tool) (job : Job) (n : Nat) {s s' : Phase × Bench}
    (h : AlikeAt s s') : AlikeAt (advance tool job n s) (advance tool job n s') := by
  induction n generalizing s s' with
  | zero => exact h
  | succ n ih =>
    rw [advance, advance, h.1]
    exact ih (step_alike tool job _ h)

/-- All steps of an assembly that is left to itself. -/
def whole (tool : Tool) (job : Job) (b : Bench) : Phase × Bench :=
  complete tool job (advance tool job stepsToLaunch (fresh b))

theorem run_assemble (tool : Tool) (job : Job) (b : Bench) :
    (assemble tool job).run.run b = ((whole tool job b).1.result, (whole tool job b).2) := rfl

theorem whole_alike (tool : Tool) (job : Job) {b b' : Bench} (h : b.Alike b') :
    AlikeAt (whole tool job b) (whole tool job b') := by
  have hfresh : AlikeAt (fresh b) (fresh b') := ⟨rfl, h.files, h.namer, h.processes⟩
  have hlaunch := advance_alike tool job stepsToLaunch hfresh
  rw [whole, whole, complete, complete, ← hlaunch.1]
  exact advance_alike tool job _ hlaunch

/-- **A whole assembly looks at no more than that.** -/
theorem assemble_alike {tool : Tool} {job : Job} {b b' c : Bench} {result : Except Fault Bytes}
    (h : b.Alike b') (hrun : (assemble tool job).run.run b = (result, c)) :
    ∃ c', (assemble tool job).run.run b' = (result, c') ∧ c.Alike c' := by
  obtain ⟨hphase, halike⟩ := whole_alike tool job h
  rw [run_assemble, hphase] at hrun
  obtain ⟨rfl, rfl⟩ := Prod.mk.inj hrun
  exact ⟨_, run_assemble tool job b', halike⟩

theorem contents_of_encode {text : RawText} {bytes : Bytes} (h : text.encode = .ok bytes) :
    contents text = bytes := by
  rw [contents, h]
  rfl

/-- The bench when an assembly has made the directory and drawn a name. -/
def named (b : Bench) (files : FileTree) : Bench :=
  { b with assemblies := b.assemblies + 1, files, namer := b.namer.draw.2 }

/-! ## Assemblers that hand back what they are given -/

/-- The next `count` assemblies give back the texts they are given. -/
def HandsBack (tool : Tool) (assembler : Assembler) (cleanup : Bool) : (count : Nat) → Bench → Prop
  | 0, _ => True
  | count + 1, b => ∀ text : String, ∃ b',
    (assemble tool ⟨assembler, text, cleanup⟩).run.run b = (.ok (Text.encode text), b') ∧
      HandsBack tool assembler cleanup count b'

variable {tool : Tool} {assembler : Assembler} {cleanup : Bool} {count : Nat} {b b' : Bench}

/-- What was told in the meantime makes no difference. -/
theorem HandsBack.congr (h : HandsBack tool assembler cleanup count b) (halike : b.Alike b') :
    HandsBack tool assembler cleanup count b' := by
  induction count generalizing b b' with
  | zero => trivial
  | succ count ih =>
    intro text
    obtain ⟨c, hrun, hrest⟩ := h text
    obtain ⟨c', hrun', halike'⟩ := assemble_alike halike hrun
    exact ⟨c', hrun', ih hrest halike'⟩

theorem HandsBack.of_succ (h : HandsBack tool assembler cleanup (count + 1) b) :
    HandsBack tool assembler cleanup count b := by
  induction count generalizing b with
  | zero => trivial
  | succ count ih =>
    intro text
    obtain ⟨c, hrun, hrest⟩ := h text
    exact ⟨c, hrun, ih hrest⟩

end Assembly

end StackLang
