import StackLang.Proofs.Staging

/-!
# The runs of an assembly

A run of an assembly is a row of steps, each with what happens while the tool is waited for: it goes
on, it ends unnoticed, the time is up, or the caller gives up. What a step can do is said once, as a
relation with a constructor for each way to go on. Whatever all its constructors preserve holds at
the end of every run.

An assembly that is left to itself is one of these runs, and it comes to its end: four steps lead
to the start of the tool or past it, and from there on every step takes something away from what
is left to do.

## Main definitions

* `Assembly.Moves` — what one step does to phase and bench
* `Assembly.Phase.process?` — the process that is to be seen to its end
* `Assembly.run`, `Assembly.Ends` — runs, and what they can end with

## Main results

* `Assembly.step_moves` — a step does no more than that
* `Assembly.step_step_clearing` — two steps clear a pair of files as other work does
* `Assembly.run_induction` — what every step preserves holds after every run
* `Assembly.exists_uncancelled_run` — a whole assembly is a run that ends
-/

namespace StackLang

namespace Assembly

open FileTree (hasNul)

/-! ## Single steps -/

/-- What one step does. -/
inductive Moves (tool : Tool) (job : Job) : Event → Phase × Bench → Phase × Bench → Prop
  /-- The directory is there. -/
  | opened {event b files} (h : b.files.makeDirectories job.assembler.directory = (files, .ok ())) :
    Moves tool job event (.opening, b) (.naming, { b with files })
  /-- The directory could not be made. -/
  | unopened {event b files e}
    (h : b.files.makeDirectories job.assembler.directory = (files, .error e)) :
    Moves tool job event (.opening, b)
      (.finished (.error (.ofFile "create" job.assembler.directory e)), { b with files })
  /-- A name was drawn. -/
  | named {event b} :
    Moves tool job event (.naming, b)
      (.writing (Pair.under job.assembler.directory b.namer.draw.1),
        { b with namer := b.namer.draw.2 })
  /-- The text was written. -/
  | wrote {event b pair bytes files} (htext : job.text.encode = .ok bytes)
    (h : b.files.write pair.source (contents job.text) = .ok files) :
    Moves tool job event (.writing pair, b) (.launching pair, { b with files })
  /-- The text has no bytes, and the file is empty. -/
  | unencoded {event b pair flaw files} (htext : job.text.encode = .error flaw)
    (h : b.files.write pair.source (contents job.text) = .ok files) :
    Moves tool job event (.writing pair, b)
      (.clearing pair (.error (.unencodable flaw)), { b with files })
  /-- The text could not be written. -/
  | unwritten {event b pair e} (h : b.files.write pair.source (contents job.text) = .error e) :
    Moves tool job event (.writing pair, b)
      (.clearing pair (.error (.ofFile "write" pair.source e)), b)
  /-- The command line holds a null character. -/
  | unspoken {event b pair} (h : (job.argv pair).any hasNul = true) :
    Moves tool job event (.launching pair, b)
      (.clearing pair (.error .nul), b.tell (.running (job.argv pair)))
  /-- The tool cannot be started. -/
  | refused {event b pair errno} (hargv : (job.argv pair).any hasNul = false)
    (h : tool (job.argv pair) b.files = .refused errno) :
    Moves tool job event (.launching pair, b)
      (.clearing pair (.error (startFault (job.argv pair) errno)),
        b.tell (.running (job.argv pair)))
  /-- The tool was started. -/
  | started {event b pair process} (hargv : (job.argv pair).any hasNul = false)
    (h : tool (job.argv pair) b.files = .started process) :
    Moves tool job event (.launching pair, b)
      (.waiting pair b.processes.length process, (b.tell (.running (job.argv pair))).begin.2)
  /-- The tool did one act. -/
  | acted {b pair number} {process : Process} {act acts} (h : process.acts = act :: acts) :
    Moves tool job .proceeds (.waiting pair number process, b)
      (.waiting pair number { process with memory := (act process.memory b.files).1, acts },
        { b with files := (act process.memory b.files).2 })
  /-- The tool does nothing more, and does not end. -/
  | idled {b pair number} {process : Process} (hacts : process.acts = [])
    (h : process.ending = .endless) :
    Moves tool job .proceeds (.waiting pair number process, b) (.waiting pair number process, b)
  /-- The tool ended well. -/
  | succeeded {b pair number} {process : Process} (hacts : process.acts = [])
    (h : process.ending = .exited 0) :
    Moves tool job .proceeds (.waiting pair number process, b)
      (.reading pair, b.mark number .ended)
  /-- The tool ended with another exit code. -/
  | failed {b pair number} {process : Process} {code} (hacts : process.acts = [])
    (h : process.ending = .exited code) (hcode : code ≠ 0) :
    Moves tool job .proceeds (.waiting pair number process, b)
      (.clearing pair (.error (exitFault (job.argv pair) code process.stderr)),
        b.mark number .ended)
  /-- The tool died. -/
  | died {b pair number} {process : Process} {signal} (hacts : process.acts = [])
    (h : process.ending = .signalled signal) :
    Moves tool job .proceeds (.waiting pair number process, b)
      (.clearing pair (.error (signalFault (job.argv pair) signal process.stderr)),
        b.mark number .ended)
  /-- The tool ended, and nobody has noticed yet. -/
  | ended {b pair number} {process : Process} (h : process.isOver = true) :
    Moves tool job .exits (.waiting pair number process, b)
      (.waiting pair number process, b.mark number .ended)
  /-- The tool has still something to do, or never ends. -/
  | unended {b pair number} {process : Process} (h : process.isOver = false) :
    Moves tool job .exits (.waiting pair number process, b) (.waiting pair number process, b)
  /-- The time was up. -/
  | timedOut {b pair number process} (h : b.isAlive number = true) :
    Moves tool job .timedOut (.waiting pair number process, b)
      (.killing pair number (timeoutFault (job.argv pair) job.assembler.timeout), b)
  /-- The time was up after the tool had ended. -/
  | timedOutLate {b pair number process} (h : b.isAlive number = false) :
    Moves tool job .timedOut (.waiting pair number process, b)
      (.clearing pair (.error (timeoutFault (job.argv pair) job.assembler.timeout)), b)
  /-- The caller gave up. -/
  | cancelled {b pair number process} (h : b.isAlive number = true) :
    Moves tool job .cancelled (.waiting pair number process, b)
      (.killing pair number .cancelled, b)
  /-- The caller gave up after the tool had ended. -/
  | cancelledLate {b pair number process} (h : b.isAlive number = false) :
    Moves tool job .cancelled (.waiting pair number process, b)
      (.clearing pair (.error .cancelled), b)
  /-- The tool was killed. -/
  | killed {event b pair number fault} (h : event ≠ .cancelled) :
    Moves tool job event (.killing pair number fault, b)
      (.clearing pair (.error fault), (b.mark number .killed).tell (.killed number))
  /-- The tool was killed, and the caller gave up before its end was seen. -/
  | interrupted {b pair number fault} :
    Moves tool job .cancelled (.killing pair number fault, b)
      (.clearing pair (.error .cancelled), b.mark number .killed)
  /-- The binary was read, or could not be read. -/
  | fetched {event b pair} :
    Moves tool job event (.reading pair, b) (.clearing pair (readBytes pair.output b), b)
  /-- The files are kept. -/
  | kept {event b pair result} (hcleanup : job.cleanup = false) :
    Moves tool job event (.clearing pair result, b)
      (.finished result, b.tell (.keeping pair.source pair.output))
  /-- The text was removed, or is told about. -/
  | cleared {event b b' pair result} (hcleanup : job.cleanup = true)
    (h : removeStaged pair.source b = (.ok (), b')) :
    Moves tool job event (.clearing pair result, b) (.clearingOutput pair result, b')
  /-- The path of the text cannot be asked for. -/
  | uncleared {event b b' pair result f} (hcleanup : job.cleanup = true)
    (h : removeStaged pair.source b = (.error f, b')) :
    Moves tool job event (.clearing pair result, b) (.finished (.error f), b')
  /-- The binary was removed, or is told about. -/
  | clearedOutput {event b b' pair result} (h : removeStaged pair.output b = (.ok (), b')) :
    Moves tool job event (.clearingOutput pair result, b) (.finished result, b')
  /-- The path of the binary cannot be asked for. -/
  | unclearedOutput {event b b' pair result f} (h : removeStaged pair.output b = (.error f, b')) :
    Moves tool job event (.clearingOutput pair result, b) (.finished (.error f), b')
  /-- Nothing is left to do. -/
  | stayed {event b result} :
    Moves tool job event (.finished result, b) (.finished result, b)

theorem launch_moves (tool : Tool) (job : Job) (event : Event) (pair : Pair) (b : Bench) :
    Moves tool job event (.launching pair, b) (launch tool job pair b) := by
  rw [launch]
  cases hargv : (job.argv pair).any hasNul with
  | true => exact .unspoken hargv
  | false =>
    cases hlaunch : tool (job.argv pair) b.files with
    | refused errno => exact .refused hargv hlaunch
    | started process => exact .started hargv hlaunch

theorem proceed_moves (tool : Tool) (job : Job) (pair : Pair) (number : Nat) (process : Process)
    (b : Bench) :
    Moves tool job .proceeds (.waiting pair number process, b)
      (proceed job pair number process b) := by
  cases hacts : process.acts with
  | cons act acts =>
    simp only [proceed, hacts, Process.act]
    exact .acted hacts
  | nil =>
    rw [proceed, hacts]
    dsimp only
    split
    · next h => exact .idled hacts h
    · next h => exact .succeeded hacts h
    · next hcode h => exact .failed hacts h hcode
    · next h => exact .died hacts h

/-- **A step does no more than that.** -/
theorem step_moves (tool : Tool) (job : Job) (event : Event) (s : Phase × Bench) :
    Moves tool job event s (step tool job event s) := by
  obtain ⟨phase, b⟩ := s
  cases phase with
  | opening =>
    rcases h : b.files.makeDirectories job.assembler.directory with ⟨files, e | ⟨⟩⟩ <;>
      simp only [step, openDirectory, h]
    · exact .unopened h
    · exact .opened h
  | naming => exact .named
  | writing pair =>
    cases h : b.files.write pair.source (contents job.text) with
    | ok files =>
      cases htext : job.text.encode with
      | ok bytes =>
        simp only [step, writeText, h, htext]
        exact .wrote htext h
      | error flaw =>
        simp only [step, writeText, h, htext]
        exact .unencoded htext h
    | error e =>
      simp only [step, writeText, h]
      exact .unwritten h
  | launching pair => exact launch_moves tool job event pair b
  | waiting pair number process =>
    cases event with
    | proceeds => exact proceed_moves tool job pair number process b
    | exits =>
      simp only [step, exit]
      cases h : process.isOver with
      | true => exact .ended h
      | false => exact .unended h
    | timedOut =>
      simp only [step, abandon]
      cases h : b.isAlive number with
      | true => exact .timedOut h
      | false => exact .timedOutLate h
    | cancelled =>
      simp only [step, abandon]
      cases h : b.isAlive number with
      | true => exact .cancelled h
      | false => exact .cancelledLate h
  | killing pair number fault =>
    simp only [step, kill]
    by_cases h : event = .cancelled
    · subst h
      exact .interrupted
    · rw [if_neg h]
      exact .killed h
  | reading pair => exact .fetched
  | clearing pair result =>
    cases hcleanup : job.cleanup with
    | false =>
      simp only [step, hcleanup]
      exact .kept hcleanup
    | true =>
      rcases h : removeStaged pair.source b with ⟨f | ⟨⟩, b'⟩ <;> simp only [step, hcleanup, h]
      · exact .uncleared hcleanup h
      · exact .cleared hcleanup h
  | clearingOutput pair result =>
    rcases h : removeStaged pair.output b with ⟨f | ⟨⟩, b'⟩ <;> simp only [step, h]
    · exact .unclearedOutput h
    · exact .clearedOutput h
  | finished result => exact .stayed

/-- The process that an assembly has still to see to its end. -/
def Phase.process? : Phase → Option Nat
  | .waiting _ number _ => some number
  | .killing _ number _ => some number
  | _ => none

/-- **Two steps clear a pair of files** as it is cleared after other work on it. -/
theorem step_step_clearing (tool : Tool) (job : Job) (first second : Event) (pair : Pair)
    (result : Except Fault Bytes) (b : Bench) :
    step tool job second (step tool job first (.clearing pair result, b)) =
      (.finished (clear job.cleanup pair result b).1, (clear job.cleanup pair result b).2) := by
  simp only [step, clear]
  cases job.cleanup with
  | false => rfl
  | true =>
    rcases removeStaged pair.source b with ⟨f | ⟨⟩, b'⟩
    · rfl
    · rcases hremove : removeStaged pair.output b' with ⟨f | ⟨⟩, b''⟩ <;>
        simp only [if_true, hremove]

/-- A removal concerns the files and the log only. -/
theorem removeStaged_frame {path : Path} {b b' : Bench} {outcome : Except Fault Unit}
    (h : removeStaged path b = (outcome, b')) : ∃ files log, b' = { b with files, log } := by
  rw [removeStaged] at h
  split at h
  · exact ⟨_, _, (Prod.mk.inj h).2.symm⟩
  · exact ⟨_, _, (Prod.mk.inj h).2.symm⟩
  · obtain ⟨-, rfl⟩ := Prod.mk.inj h
    split <;> exact ⟨_, _, rfl⟩

/-! ## Runs -/

/-- The steps of an assembly while the events happen. -/
def run (tool : Tool) (job : Job) (events : List Event) (s : Phase × Bench) : Phase × Bench :=
  events.foldl (fun s event => step tool job event s) s

/-- An assembly that begins on the bench `b` can end with the result and leave the bench `b'`. -/
def Ends (tool : Tool) (job : Job) (b : Bench) (result : Except Fault Bytes) (b' : Bench) : Prop :=
  ∃ events, run tool job events (fresh b) = (.finished result, b')

section

variable {tool : Tool} {job : Job}

theorem run_cons (event : Event) (events : List Event) (s : Phase × Bench) :
    run tool job (event :: events) s = run tool job events (step tool job event s) := rfl

theorem run_finished (events : List Event) (result : Except Fault Bytes) (b : Bench) :
    run tool job events (.finished result, b) = (.finished result, b) := by
  induction events with
  | nil => rfl
  | cons event events ih => exact ih

/-- **What every step preserves holds after every run.** -/
theorem run_induction {P : Phase × Bench → Prop}
    (hstep : ∀ event s s', Moves tool job event s s' → P s → P s') {s : Phase × Bench} (h : P s)
    (events : List Event) : P (run tool job events s) := by
  induction events generalizing s with
  | nil => exact h
  | cons event events ih => exact ih (hstep event s _ (step_moves tool job event s) h)

theorem run_append (before after : List Event) (s : Phase × Bench) :
    run tool job (before ++ after) s = run tool job after (run tool job before s) :=
  List.foldl_append

/-- In an assembly that is left to itself the tool goes on, or the time is up. -/
theorem expected_eq_or (job : Job) (phase : Phase) :
    expected job phase = .proceeds ∨ expected job phase = .timedOut := by
  cases phase with
  | waiting pair number process =>
    rw [expected]
    split
    · exact .inr rfl
    · split
      · exact .inr rfl
      · exact .inl rfl
  | _ => exact .inl rfl

/-- Nobody gives it up. -/
theorem expected_ne_cancelled (job : Job) (phase : Phase) : expected job phase ≠ .cancelled := by
  rcases expected_eq_or job phase with h | h
  · rw [h]
    exact ne_of_beq_false rfl
  · rw [h]
    exact ne_of_beq_false rfl

theorem exists_run_advance (tool : Tool) (job : Job) (n : Nat) (s : Phase × Bench) :
    ∃ events, .cancelled ∉ events ∧ advance tool job n s = run tool job events s := by
  induction n generalizing s with
  | zero => exact ⟨[], List.not_mem_nil, rfl⟩
  | succ n ih =>
    obtain ⟨events, hevents, h⟩ := ih (step tool job (expected job s.1) s)
    exact ⟨expected job s.1 :: events,
      List.not_mem_cons_of_ne_of_not_mem (expected_ne_cancelled job s.1).symm hevents, h⟩

/-! ## Ends -/

/-- How many steps may come before the tool runs or the result is known. -/
def Phase.ahead : Phase → Nat
  | .opening => 4
  | .naming => 3
  | .writing _ => 2
  | .launching _ => 1
  | _ => 0

/-- How many steps may be left once the tool was started or the result is known. -/
def Phase.left : Phase → Nat
  | .waiting _ _ process => process.acts.length + 4
  | .killing _ _ _ => 3
  | .reading _ => 3
  | .clearing _ _ => 2
  | .clearingOutput _ _ => 1
  | _ => 0

theorem Phase.left_le_remaining (phase : Phase) : phase.left ≤ phase.remaining := by
  cases phase <;> simp [left, remaining]

theorem Phase.eq_finished {phase : Phase} (hahead : phase.ahead = 0) (hleft : phase.left = 0) :
    phase = .finished phase.result := by
  cases phase with
  | finished result => rfl
  | opening | naming | writing | launching => cases hahead
  | waiting | killing | reading | clearing | clearingOutput => cases hleft

theorem Moves.ahead_le {event : Event} {s s' : Phase × Bench} (h : Moves tool job event s s') :
    s'.1.ahead ≤ s.1.ahead - 1 := by
  cases h <;> simp [Phase.ahead]

/-- The next event leaves less to do: a tool that never ends is waited for until the time is up. -/
theorem Moves.left_le {s s' : Phase × Bench} (h : Moves tool job (expected job s.1) s s')
    (hahead : s.1.ahead = 0) : s'.1.left ≤ s.1.left - 1 := by
  generalize hevent : expected job s.1 = event at h
  cases h with
  | opened | unopened | named | wrote | unencoded | unwritten | unspoken | refused | started =>
    cases hahead
  | acted hacts => simp [Phase.left, hacts]
  -- nobody waits for an endless tool: what happens next is that the time is up
  | idled hacts hending => simp [expected, hacts, hending] at hevent
  -- and an end is noticed at once
  | ended | unended => rcases expected_eq_or job _ with h | h <;> cases h.symm.trans hevent
  | succeeded | failed | died | timedOut | timedOutLate | cancelled | cancelledLate | killed |
    interrupted | fetched | kept | cleared | uncleared | clearedOutput | unclearedOutput | stayed =>
    simp [Phase.left]

theorem ahead_advance (tool : Tool) (job : Job) (n : Nat) (s : Phase × Bench) :
    (advance tool job n s).1.ahead ≤ s.1.ahead - n := by
  induction n generalizing s with
  | zero => exact Nat.le_refl _
  | succ n ih =>
    have hfirst := (step_moves tool job (expected job s.1) s).ahead_le
    have hrest := ih (step tool job (expected job s.1) s)
    rw [advance]
    omega

theorem left_advance (tool : Tool) (job : Job) (n : Nat) {s : Phase × Bench}
    (hahead : s.1.ahead = 0) : (advance tool job n s).1.left ≤ s.1.left - n := by
  induction n generalizing s with
  | zero => exact Nat.le_refl _
  | succ n ih =>
    have hmoves := step_moves tool job (expected job s.1) s
    have hfirst := hmoves.left_le hahead
    have hrest := ih (Nat.le_zero.mp (hahead ▸ hmoves.ahead_le))
    rw [advance]
    omega

theorem complete_finished {s : Phase × Bench} (hahead : s.1.ahead = 0) :
    (complete tool job s).1 = .finished (complete tool job s).1.result := by
  have hleft := left_advance tool job s.1.remaining hahead
  have hstill := ahead_advance tool job s.1.remaining s
  rw [Nat.sub_eq_zero_of_le s.1.left_le_remaining] at hleft
  rw [hahead, Nat.zero_sub] at hstill
  exact Phase.eq_finished (Nat.le_zero.mp hstill) (Nat.le_zero.mp hleft)

theorem whole_finished (tool : Tool) (job : Job) (b : Bench) :
    (whole tool job b).1 = .finished (whole tool job b).1.result :=
  complete_finished (Nat.le_zero.mp (ahead_advance tool job stepsToLaunch (fresh b)))

/-- **A whole assembly is a run that ends**, and nobody gives it up. -/
theorem exists_uncancelled_run (tool : Tool) (job : Job) (b : Bench) :
    ∃ events, .cancelled ∉ events ∧ run tool job events (fresh b) =
      (.finished ((assemble tool job).run.run b).1, ((assemble tool job).run.run b).2) := by
  obtain ⟨before, hnever, hbefore⟩ := exists_run_advance tool job stepsToLaunch (fresh b)
  obtain ⟨after, hnever', hafter⟩ := exists_run_advance tool job
    (run tool job before (fresh b)).1.remaining (run tool job before (fresh b))
  have hwhole : whole tool job b = run tool job (before ++ after) (fresh b) := by
    rw [whole, complete, hbefore, hafter, run_append]
  refine ⟨before ++ after, ?_, ?_⟩
  · rw [List.mem_append]
    exact not_or_intro hnever hnever'
  · rw [← hwhole, run_assemble, ← whole_finished]

theorem ends_assemble (tool : Tool) (job : Job) (b : Bench) :
    Ends tool job b ((assemble tool job).run.run b).1 ((assemble tool job).run.run b).2 := by
  obtain ⟨events, -, hrun⟩ := exists_uncancelled_run tool job b
  exact ⟨events, hrun⟩

end

end Assembly

end StackLang
