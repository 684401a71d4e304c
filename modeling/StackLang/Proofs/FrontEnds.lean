import StackLang.Proofs.ConsoleOutput
import StackLang.Proofs.RenamedRuns
import StackLang.Proofs.ReportedInputs

/-!
# The two front ends

A program can be run from the command line, and it can be sent to the service. Both read the inputs
that are set before they compile the program, and both run it in the same way, so that the same
comes of it: the command line shows a result exactly when the service replies with it, and a fault
that the service has words for is told in the same words by both. The words may differ where they
name the staged files, which are called differently each time.

Three things part them. The command line sets up its log first, and what is set as the log level may
be no level; this is a fault that nobody handles. The command line shows whatever it is given, and
the service has only texts and integers: a fault that repeats half of a surrogate pair cannot be
sent, and a value that is no integer is taken for one or is none.

## Main definitions

* `Bench.Drawn` — the names that are drawn for the same occasion
* `Execution.Counterparts` — two benches on which a session finds the same
* `Service.Answers` — what comes of a program, and the reply to it
* `CommandLine.ShownAsTaken` — values that both front ends take for the same

## Main results

* `Execution.Counterparts.agree` — the same comes of a program on both benches
* `Service.answers_handle` — what the service replies
* `CommandLine.fst_run_plain` — what the command line shows
* `CommandLine.console_agrees_with_reply` — the two front ends agree
* `CommandLine.log_level_parts_front_ends` — but for the log level
-/

namespace StackLang

/-- The names that the benches draw for the same occasion, as they show in messages. -/
def Bench.Drawn (b b' : Bench) (s t : List Char) : Prop :=
  ∃ n m, (n, m) ∈ (b.namer.drawMany 2).zip (b'.namer.drawMany 2) ∧ s = n.toList ∧ t = m.toList

/-- What the engine that comes with the language has linked gives integers. -/
theorem Wasm.exists_int_of_compute {binary : Bytes} {library : Option Bytes}
    {linked : Execution.Linked} {inputs : Int × Int} {value : Value}
    (hlink : Engine.link binary library = .ok linked.call)
    (h : Execution.compute linked inputs = .ok (some value)) : ∃ n, value = .int n := by
  rw [Engine.link, engine] at hlink
  dsimp only at hlink
  split at hlink
  · rw [Execution.compute, ← Except.ok.inj hlink, answer] at h
    split at h
    · rename_i callee _ result hresult
      split at hresult
      · cases hresult
        obtain ⟨n, -, hn⟩ := Option.map_eq_some_iff.mp (Except.ok.inj h)
        exact ⟨n, hn.symm⟩
      · cases hresult
    · cases h
  · cases hlink

namespace Execution

/-- The session finds the same on both benches. They have the same files up to a renaming, which
takes the names that are drawn on the one to those that are drawn on the other one and leaves alone
what is named in the settings, and the tool does the same under all of these names. -/
structure Counterparts (s : Session) (ρ : Renaming) (b b' : Bench) : Prop where
  files : b.files.Mirrors ρ b'.files
  library : b.library = b'.library
  names : List.Forall₂ ρ.Takes (b.namer.drawMany 2) (b'.namer.drawMany 2)
  sources : ∀ path, ReadsLibrary s.settings path → ρ.Fixes path
  directory : ∀ a, s.assembler = .ok a → ρ.Fixes a.directory
  tool : ∀ a, s.assembler = .ok a → ∀ n m,
    (n, m) ∈ (b.namer.drawMany 2).zip (b'.namer.drawMany 2) → s.tool.Uniform a ρ (b.Drawn b') n m

namespace Counterparts

variable {s : Session} {ρ : Renaming} {b b' : Bench}

theorem takes (h : Counterparts s ρ b b') {n m : String}
    (hmem : (n, m) ∈ (b.namer.drawMany 2).zip (b'.namer.drawMany 2)) : ρ.Takes n m :=
  (List.forall₂_iff_zip.mp h.names).2 hmem

theorem unaltered (h : Counterparts s ρ b b') : Text.Unaltered (b.Drawn b') := by
  rintro _ _ ⟨n, m, hmem, rfl, rfl⟩
  exact ⟨(h.takes hmem).simple.shown, (h.takes hmem).simple'.shown⟩

theorem mirrors (h : Counterparts s ρ b b') {a : Assembler} (ha : s.assembler = .ok a) :
    b.Mirrors ρ (Assembly.Twins s.tool a ρ (b.Drawn b')) 2 b' := by
  refine ⟨h.files, h.library, List.forall₂_iff_zip.mpr ⟨h.names.length_eq, ?_⟩⟩
  intro n m hmem
  exact Assembly.twins_of_takes (h.directory a ha) (h.takes hmem) ⟨n, m, hmem, rfl, rfl⟩
    (h.tool a ha n m hmem)

theorem agree_runRaw [Engine] (h : Counterparts s ρ b b') (cleanup : Bool) (tokens : List RawText)
    (inputs : Int × Int) :
    Agree (Fault.SameBut (b.Drawn b')) ((runRaw s cleanup tokens inputs).run.run b).1
      ((runRaw s cleanup tokens inputs).run.run b').1 := by
  -- which names are twins depends on the assembler, so the relation is chosen for the one there is
  cases ha : s.assembler with
  | ok a =>
    refine Execution.agree_runRaw ?_ (fun f _ => .refl _ f) (fun f _ => .refl _ f) (h.mirrors ha)
    intro texts a' ha'
    obtain rfl := Except.ok.inj (ha.symm.trans ha')
    exact correspondence_mirrors _ h.unaltered (h.directory a ha) h.sources
  | error f =>
    refine Execution.agree_runRaw (R := fun _ _ _ => True) ?_ (fun f _ => .refl _ f)
      (fun f _ => .refl _ f) trivial
    intro texts a' ha'
    cases ha.symm.trans ha'

/-- **The same comes of a program on both benches.** -/
theorem agree [Engine] (h : Counterparts s ρ b b') (cleanup : Bool) (tokens : List RawText) :
    Agree (Fault.SameBut (b.Drawn b')) (outcome s cleanup tokens b)
      (outcome s cleanup tokens b') := by
  rw [outcome, outcome]
  cases Inputs.parseRaw s.settings.inputs with
  | error f => exact .error (.refl _ f)
  | ok inputs => exact h.agree_runRaw cleanup tokens inputs

end Counterparts

/-- On the engine that comes with the language every value is an integer. -/
theorem exists_int_of_outcome {s : Session} {cleanup : Bool} {tokens : List RawText} {b : Bench}
    {value : Value} (h : outcome s cleanup tokens b = .ok (some value)) : ∃ n, value = .int n := by
  rw [outcome] at h
  cases hinputs : Inputs.parseRaw s.settings.inputs with
  | error f =>
    rw [hinputs] at h
    cases h
  | ok inputs =>
    rw [hinputs] at h
    have hrun : (runRaw s cleanup tokens inputs).run.run b = (.ok (some value), _) :=
      Prod.ext h rfl
    rw [runRaw] at hrun
    obtain ⟨texts, c, -, hprogram⟩ := Work.exists_of_run_bind_ok hrun
    rw [runProgram] at hprogram
    obtain ⟨linked, d, himport, hcompute⟩ := Work.exists_of_run_bind_ok hprogram
    obtain ⟨binary, library, hlink⟩ := exists_link_of_importProgram himport
    rw [Work.run_ofExcept] at hcompute
    exact Wasm.exists_int_of_compute hlink (Prod.mk.inj hcompute).1

end Execution

/-! ## The service -/

namespace Service

/-- What comes of a program on the inputs that are set, and the reply to it. -/
inductive Answers (s : Execution.Session) (tokens : List RawText) :
    Except Fault (Option Value) → Reply → Prop
  | result {inputs : Int × Int} (hinputs : Inputs.parseRaw s.settings.inputs = .ok inputs)
    {value : Value} {r : Int} (hvalue : integerOf? value = some r) :
    Answers s tokens (.ok (some value)) ⟨200, .json (runJson tokens (inputs, r)), none⟩
  | noResult {value? : Option Value} (hvalue : value?.bind integerOf? = none) :
    Answers s tokens (.ok value?) (.crash .noResult)
  | fault (f : Fault) : Answers s tokens (.error f) (.ofFault f)

/-- Work that fails is answered with its fault. -/
theorem handle_of_fault [Engine] {s : Execution.Session} {r : Request} {asked : RunRequest}
    {b b' : Bench} {f : Fault} (h : AsksToRun r asked)
    (hwork : (runWork s asked).run.run b = (.error f, b')) : (handle s r b).1 = .ofFault f := by
  rw [h.handle_eq, runReply, answer, hwork]
  exact failedReply_fst _ f b'

/-- **What the service replies.** -/
theorem answers_handle [Engine] {s : Execution.Session} {r : Request} {tokens : List RawText}
    (h : AsksToRun r ⟨tokens, none⟩) (b : Bench) :
    Answers s tokens (Execution.outcome s true tokens b) (handle s r b).1 := by
  rw [Execution.outcome]
  cases hinputs : Inputs.parseRaw s.settings.inputs with
  | error f =>
    have hpair : (Work.ofExcept (inputsOf s ⟨tokens, none⟩)).run.run b = (.error f, b) := by
      rw [inputsOf, hinputs, Work.run_ofExcept]
    rw [handle_of_fault h (Work.run_bind_of_error hpair _)]
    exact .fault f
  | ok inputs =>
    have hgiven : inputsOf s ⟨tokens, none⟩ = .ok inputs := hinputs
    have hpair : (Work.ofExcept (inputsOf s ⟨tokens, none⟩)).run.run b = (.ok inputs, b) := by
      rw [hgiven, Work.run_ofExcept]
    change Answers s tokens ((Execution.runRaw s true tokens inputs).run.run b).1 _
    rcases hrun : (Execution.runRaw s true tokens inputs).run.run b with ⟨f | value?, b'⟩
    · have hwork : (runWork s ⟨tokens, none⟩).run.run b = (.error f, b') := by
        rw [runWork, Work.run_bind_of_ok hpair, Work.run_bind_of_error hrun]
      rw [handle_of_fault h hwork]
      exact .fault f
    · cases hresult : value?.bind integerOf? with
      | none =>
        have hwork : (runWork s ⟨tokens, none⟩).run.run b = (.error .noResult, b') := by
          rw [runWork, Work.run_bind_of_ok hpair, Work.run_bind_of_ok hrun, hresult]
          rfl
        rw [handle_of_fault h hwork]
        exact .noResult hresult
      | some result =>
        obtain ⟨value, rfl, hvalue⟩ := Option.bind_eq_some_iff.mp hresult
        rw [h.handle_eq, runReply_of_result hgiven hrun hvalue]
        exact .result hinputs hvalue

section

variable {s : Execution.Session} {tokens : List RawText} {outcome : Except Fault (Option Value)}
  {reply : Reply}

theorem Answers.eq_ofFault {f : Fault} (h : Answers s tokens (.error f) reply) :
    reply = .ofFault f := by
  cases h with
  | fault f => rfl

/-- A result is in the reply exactly when there is a value that is taken for it. -/
theorem Answers.ok_iff (h : Answers s tokens outcome reply) (r : Int) :
    (∃ inputs, reply = ⟨200, .json (runJson tokens (inputs, r)), none⟩) ↔
      ∃ value, outcome = .ok (some value) ∧ integerOf? value = some r := by
  cases h with
  | @result inputs hinputs value q hvalue =>
    constructor
    · rintro ⟨given, hreply⟩
      have hbody := Body.json.inj (Reply.mk.inj hreply).2.1
      simp only [runJson, Json.obj.injEq, List.cons.injEq, Prod.mk.injEq, Json.int.injEq,
        true_and, and_true] at hbody
      exact ⟨value, rfl, hbody.2 ▸ hvalue⟩
    · rintro ⟨other, hother, hr⟩
      cases hother
      obtain rfl := Option.some.inj (hvalue.symm.trans hr)
      exact ⟨inputs, rfl⟩
  | @noResult value? hvalue =>
    refine iff_of_false ?_ ?_
    · rintro ⟨given, hreply⟩
      cases (Reply.mk.inj hreply).2.2
    · rintro ⟨value, hvalue', hr⟩
      cases hvalue'
      cases hvalue.symm.trans hr
  | fault f =>
    refine iff_of_false ?_ ?_
    · rintro ⟨given, hreply⟩
      exact status_ofFault_ne f (by rw [hreply])
    · rintro ⟨value, hvalue, -⟩
      cases hvalue

/-- A reply in words is the reply for a fault that has a kind, and words that are a text. -/
theorem Answers.exists_fault {status : Nat} (h : Answers s tokens outcome reply)
    (hexplains : reply.Explains status) :
    ∃ f kind, outcome = .error f ∧ f.kind? = some kind ∧ f.wording.text?.isSome = true := by
  cases h with
  | result hinputs hvalue =>
    obtain ⟨detail, kind, position, hreply⟩ := hexplains
    have hbody := Body.json.inj (Reply.mk.inj hreply).2.1
    simp [runJson] at hbody
  | noResult => exact absurd hexplains (not_explains_crash _ _)
  | fault f =>
    obtain ⟨kind, hkind, hwording, -⟩ := hexplains.of_ofFault
    exact ⟨f, kind, rfl, hkind, by rw [hwording, RawText.text?_ofString]; rfl⟩

end

end Service

/-! ## Benches with numbered names -/

namespace Service

/-- The renaming that takes the files under the names with the numbers 3 and 4 to those under the
names with the numbers 1 and 2, and these to them. -/
def workRenaming : Renaming :=
  ((Renaming.exchange "rerun-3.wat" "rerun-1.wat" (by decide) (by decide) (by decide)).comp
    (.exchange "rerun-3.wasm" "rerun-1.wasm" (by decide) (by decide) (by decide))).comp
  ((Renaming.exchange "rerun-4.wat" "rerun-2.wat" (by decide) (by decide) (by decide)).comp
    (.exchange "rerun-4.wasm" "rerun-2.wasm" (by decide) (by decide) (by decide)))

theorem takes_workRenaming : List.Forall₂ workRenaming.Takes
    ((Namer.counter Namer.defaultStem 3).drawMany 2)
    ((Namer.counter Namer.defaultStem 1).drawMany 2) := by
  have hdrawn : (Namer.counter Namer.defaultStem 3).drawMany 2 = ["rerun-3", "rerun-4"] := by rfl
  have hdrawn' : (Namer.counter Namer.defaultStem 1).drawMany 2 = ["rerun-1", "rerun-2"] := by rfl
  have hsimple : ∀ name ∈ ["rerun-1", "rerun-2", "rerun-3", "rerun-4"], Namer.Simple name := by
    intro name hname
    refine Namer.simple_of_isAlphanum ?_ ?_
    · revert name
      decide
    · revert name
      decide
  rw [hdrawn, hdrawn']
  exact .cons ⟨by decide, by decide, hsimple _ (by simp), hsimple _ (by simp)⟩
    (.cons ⟨by decide, by decide, hsimple _ (by simp), hsimple _ (by simp)⟩ .nil)

/-- The same is found on two benches with the directory `/work` that count their names from 3 and
from 1. -/
theorem counterparts_workBench (inputs logLevel : String) :
    Execution.Counterparts (workSession inputs logLevel) workRenaming
      (workBench (.counter Namer.defaultStem 3)) (workBench (.counter Namer.defaultStem 1)) := by
  have hfix : workRenaming.Fixes (.ofString "/work") := by
    have hnames : (Path.ofString "/work").names = ["work"] := by decide
    intro name hname
    rw [hnames, List.mem_singleton] at hname
    rw [hname]
    decide
  have hassembler : ∀ a, (workSession inputs logLevel).assembler = .ok a →
      a.directory = .ofString "/work" := by
    intro a ha
    rw [← Except.ok.inj ((assembler_workSession inputs logLevel).symm.trans ha)]
  exact
    { files := FileTree.mirrors_self (by decide) (by decide) (by decide)
      library := rfl
      names := takes_workRenaming
      sources := by
        rintro path (hset | hset)
        · cases hset
        · cases hset
      directory := fun a ha => hassembler a ha ▸ hfix
      tool := by
        intro a ha n m hmem
        have htakes := (List.forall₂_iff_zip.mp takes_workRenaming).2 hmem
        refine Assembly.uniform_copying ?_ (hassembler a ha ▸ hfix) htakes
        rw [hassembler a ha]
        exact Path.proper_ofString _ }

end Service

/-! ## The command line -/

namespace CommandLine

variable {inv : Invocation} {tokens : List RawText}

/-- The arguments for a program without colours, which is set off by two dashes. -/
def plainArgs (tokens : List RawText) : List RawText :=
  .ofString "--no-color" :: .ofString "--" :: tokens

/-- The options that these arguments set. -/
def plainOptions : Options := [("color", false)]

theorem parse_plainArgs (tokens : List RawText) :
    Options.parse (plainArgs tokens) = (plainOptions, tokens) := by
  have hflag : Options.classify "--no-color" = .flag "color" false := by decide
  have hseparator : Options.classify "--" = .separator := by decide
  rw [plainArgs, Options.parse, Options.parseFrom, hflag]
  dsimp only
  rw [Options.parseFrom, hseparator]
  rfl

theorem switched_plainArgs {name : String} (h : .ofString name ∈ knownOptions) (default : Bool)
    (tokens : List RawText) :
    Options.switched name default (plainArgs tokens) = plainOptions.get name default := by
  rw [← get_parse name h, parse_plainArgs]

theorem outcome_plain [Engine] (hargs : inv.args = plainArgs tokens) (b : Bench) :
    outcome inv b = Execution.outcome (session inv) true tokens b := by
  have hcleanup : Options.switched "cleanup" true inv.args = true := by
    rw [hargs, switched_plainArgs (by simp [knownOptions])]
    rfl
  rw [outcome, hcleanup, hargs, parse_plainArgs]

theorem fst_runQuiet_plain [Engine] (hargs : inv.args = plainArgs tokens) (b : Bench) :
    (runQuiet inv b).1 = report false tokens "" (outcome inv b) := by
  have hcolor : Options.switched "color" inv.terminal inv.args = false := by
    rw [hargs, switched_plainArgs (by simp [knownOptions])]
    rfl
  have hwat : Options.switched "wat" false inv.args = false := by
    rw [hargs, switched_plainArgs (by simp [knownOptions])]
    rfl
  have htokens : (Options.parse inv.args).2 = tokens := by rw [hargs, parse_plainArgs]
  have hshown : shown inv = "" := by
    rw [shown, hwat]
    split <;> rfl
  rw [fst_runQuiet, hcolor, htokens, hshown]

/-- **What the command line shows** of a program without colours. -/
theorem fst_run_plain [Engine] (hargs : inv.args = plainArgs tokens) {least : Nat}
    (hlevel : threshold inv.settings.logLevel = .ok least) (style : LogStyle) (b : Bench) :
    let shown := report false tokens "" (outcome inv b)
    let log := logText style least ((run style inv b).2.log.drop b.log.length)
    (run style inv b).1 = { shown with stderr := log ++ shown.stderr } := by
  intro shown log
  rw [run_of_level hlevel style b, fst_runQuiet_plain hargs]

/-- The line of a result tells how the value is shown, and no integer is shown as nothing. -/
theorem resultLine_eq_iff {value? : Option Value} {r : Int} :
    resultLine tokens value? = resultLine tokens (some r) ↔
      ∃ value, value? = some value ∧ value.text = Number.int r := by
  rw [resultLine, resultLine, String.append_right_inj]
  cases value? with
  | some value => simp [Value.text]
  | none =>
    refine iff_of_false (fun htext => ?_) (by simp)
    have htext : "None" = Number.int r := htext
    have hmem : 'N' ∉ (Number.int r).toList := Number.not_mem_int (by decide) (by decide) r
    rw [← htext] at hmem
    exact absurd (by decide) hmem

/-- **A result is shown exactly when there is a value that is shown so.** -/
theorem report_shows_iff (tokens : List RawText) (outcome : Except Fault (Option Value)) (r : Int) :
    (report false tokens "" outcome).ending = .code 0 ∧
        (report false tokens "" outcome).stdout = resultLine tokens (some r) ++ "\n" ↔
      ∃ value, outcome = .ok (some value) ∧ value.text = Number.int r := by
  cases outcome with
  | error f =>
    refine iff_of_false ?_ (by simp)
    rintro ⟨hending, -⟩
    rw [report, failed] at hending
    split at hending <;> cases hending
  | ok value? =>
    have hplain : (report false tokens "" (.ok value?)).stdout
        = resultLine tokens value? ++ "\n" := by
      rw [report, bold, if_neg Bool.false_ne_true, String.empty_append]
    rw [hplain, String.append_left_inj, resultLine_eq_iff]
    simp only [Except.ok.injEq]
    exact and_iff_right rfl

/-- Faults that have a kind are reported. -/
theorem isReported_of_kind {f : Fault} {kind : String} (h : f.kind? = some kind) :
    isReported f = true := by
  cases f <;> first | rfl | cases h

/-- The value is shown as the integer that the service takes it for, if it takes it for one. -/
def ShownAsTaken (value : Value) : Prop :=
  ∀ n, value.text = Number.int n ↔ Service.integerOf? value = some n

theorem shownAsTaken_int (n : Int) : ShownAsTaken (.int n) := by
  intro m
  rw [Value.text, Service.integerOf?, Option.some.injEq]
  exact ⟨Number.int_injective, congrArg Number.int⟩

/-- The service starts with the session of the command line. -/
theorem eq_session_of_start {s : Execution.Session}
    (h : Service.start inv.settings inv.tool = .ok s) : s = session inv := by
  rw [session]
  rw [Service.start] at h
  cases hcreate : Assembler.create inv.settings [] "" none with
  | error f =>
    rw [hcreate] at h
    cases h
  | ok a =>
    rw [hcreate] at h
    cases h
    rfl

/-- **The two front ends agree.** Let the command line run a program without colours, and let a
request ask a service that has started to run it on the inputs that are set, on benches where they
find the same. Let the log level be one. Then the command line ends with code 0 and shows a result
exactly when the service replies with it, if and only if the value of the program, where it has one,
is shown as the integer that the service takes it for. If one of them ends in a fault that has a
kind then both do, and the message on the error channel and the detail of the reply are the same but
for the names that were drawn; but a fault whose words are no text is told on the error channel
only, and the service fails. -/
theorem console_agrees_with_reply [Engine] (inv : Invocation) (hargs : inv.args = plainArgs tokens)
    {least : Nat} (hlevel : threshold inv.settings.logLevel = .ok least) (style : LogStyle)
    {s : Execution.Session} (hstarted : Service.start inv.settings inv.tool = .ok s)
    {r : Service.Request} (hasks : Service.AsksToRun r ⟨tokens, none⟩) {ρ : Renaming}
    {b b' : Bench} (h : Execution.Counterparts s ρ b b') :
    let console := (run style inv b).1
    let log := logText style least ((run style inv b).2.log.drop b.log.length)
    let reply := (Service.handle s r b').1
    ((∀ result : Int,
      console.ending = .code 0 ∧ console.stdout = resultLine tokens (some result) ++ "\n" ↔
        ∃ inputs, reply = ⟨200, .json (Service.runJson tokens (inputs, result)), none⟩) ↔
      ∀ value, outcome inv b = .ok (some value) → ShownAsTaken value) ∧
    (∀ f kind, outcome inv b = .error f → f.kind? = some kind →
      console = ⟨"", log ++ (f.message ++ "\n"), .code 1⟩ ∧
      (f.wording.text?.isSome = true →
        ∃ detail : String, Text.SameBut (b.Drawn b') f.message.toList detail.toList ∧
          reply = ⟨f.status, .json (.obj [("detail", .str detail), ("kind", .str kind),
            ("position", f.position?.elim .null .int)]), none⟩) ∧
      (f.wording.text? = none → reply = .crash .unsendable)) ∧
    ∀ status, reply.Explains status →
      ∃ f kind, outcome inv b = .error f ∧ f.kind? = some kind ∧
        f.wording.text?.isSome = true := by
  intro console log reply
  obtain rfl := eq_session_of_start hstarted
  have hconsole : console = _ := fst_run_plain hargs hlevel style b
  have hagree := h.agree true tokens
  rw [← outcome_plain hargs] at hagree
  have hanswers : Service.Answers (session inv) tokens _ reply := Service.answers_handle hasks b'
  refine ⟨?_, fun f kind hf hkind => ?_, fun status hexplains => ?_⟩
  · simp only [hconsole, hanswers.ok_iff, ← hagree.ok_iff, report_shows_iff]
    constructor
    · intro hall value hvalue n
      simpa [hvalue] using hall n
    · intro hall result
      constructor
      · rintro ⟨value, hvalue, htext⟩
        exact ⟨value, hvalue, (hall value hvalue result).mp htext⟩
      · rintro ⟨value, hvalue, hresult⟩
        exact ⟨value, hvalue, (hall value hvalue result).mpr hresult⟩
  · rw [hf, report, failed, if_pos (isReported_of_kind hkind)] at hconsole
    rw [hf] at hagree
    obtain ⟨f', hf', hsame⟩ := hagree.exists_right
    rw [hf'] at hanswers
    have hkind' : f'.kind? = some kind := hsame.kind ▸ hkind
    refine ⟨hconsole, fun hplain => ?_, fun hgarbled => ?_⟩
    · rw [hsame.wording, Option.isSome_iff_exists] at hplain
      obtain ⟨text, htext⟩ := hplain
      refine ⟨f'.message, hsame.message, ?_⟩
      rw [hanswers.eq_ofFault, Service.ofFault_eq_of_kind hkind' (Fault.wording_eq_of_text htext),
        hsame.status, hsame.position]
    · have hnone := hsame.wording
      rw [hgarbled, Option.isSome_none] at hnone
      rw [hanswers.eq_ofFault,
        Service.ofFault_of_garbled hkind' (Option.not_isSome_iff_eq_none.mp (by simp [← hnone]))]
  · obtain ⟨f', kind, hf', hkind, hplain⟩ := hanswers.exists_fault hexplains
    rw [hf'] at hagree
    obtain ⟨f, hf, hsame⟩ := hagree.exists_left
    exact ⟨f, kind, hf, hsame.kind.trans hkind, hsame.wording.trans hplain⟩

/-- Three programs, on benches that count their names from 3 and from 1. The first one needs the
library, and both front ends have its result. The second one begins with two dashes, and both say
that this is no instruction. The third one is half of a pair: the command line says that this is no
instruction, and the service fails. -/
theorem console_agrees_with_reply_power :
    let request : String → Service.Request := fun tokens =>
      ⟨"POST", "/programs/run", some "application/json",
        some ("\x7b\"tokens\": " ++ tokens ++ "\x7d")⟩
    let settings := Service.workSettings "-3,3" "WARNING"
    let inv : List RawText → Invocation := fun tokens =>
      ⟨settings, .copying, plainArgs tokens, true, "main"⟩
    let r := request "[\"p1\", \"p2\", \"cpow\"]"
    let r' := request "[\"--\", \"p1\"]"
    let r'' := request "[\"\\udcff\"]"
    let s := Service.workSession "-3,3" "WARNING"
    let b := Service.workBench (.counter Namer.defaultStem 3)
    let b' := Service.workBench (.counter Namer.defaultStem 1)
    threshold "WARNING" = .ok 30 ∧ Service.start settings .copying = .ok s ∧
      Service.AsksToRun r ⟨["p1", "p2", "cpow"], none⟩ ∧
      Service.AsksToRun r' ⟨["--", "p1"], none⟩ ∧
      Service.AsksToRun r'' ⟨[⟨[.half 0x4FF]⟩], none⟩ ∧
      Execution.Counterparts s Service.workRenaming b b' ∧
      (Service.handle s r b').1
        = ⟨200, .json (Service.runJson ["p1", "p2", "cpow"] ((-3, 3), -27)), none⟩ ∧
      ∀ style, (run style (inv ["p1", "p2", "cpow"]) b).1.ending = .code 0 ∧
        (run style (inv ["p1", "p2", "cpow"]) b).1.stdout = "rerun p1 p2 cpow --> -27\n" ∧
        (∃ log, (run style (inv ["--", "p1"]) b).1
          = ⟨"", log ++ "Rerun instruction #1 \"--\" is invalid.\n", .code 1⟩) ∧
        (Service.handle s r' b').1.Explains 422 ∧
        (∃ log, (run style (inv [⟨[.half 0x4FF]⟩]) b).1
          = ⟨"", log ++ "Rerun instruction #1 \"\\udcff\" is invalid.\n", .code 1⟩) ∧
        (Service.handle s r'' b').1 = .crash .unsendable := by
  intro request settings inv r r' r'' s b b'
  have hlevel : threshold "WARNING" = .ok 30 := by decide
  have hstarted : Service.start settings .copying = .ok s := by
    have hassembler : Assembler.create settings [] "" none = _ :=
      Service.assembler_workSession "-3,3" "WARNING"
    have hsession : s = ⟨settings, .copying, Assembler.create settings [] "" none⟩ := rfl
    rw [Service.start, hsession, hassembler]
    rfl
  have hasks : Service.AsksToRun r ⟨["p1", "p2", "cpow"], none⟩ :=
    ⟨by decide, Service.exists_body_of_toOption (by decide +kernel)⟩
  have hasks' : Service.AsksToRun r' ⟨["--", "p1"], none⟩ :=
    ⟨by decide, Service.exists_body_of_toOption (by decide +kernel)⟩
  have hasks'' : Service.AsksToRun r'' ⟨[⟨[.half 0x4FF]⟩], none⟩ :=
    ⟨by decide, Service.exists_body_of_toOption (by decide +kernel)⟩
  have hinputs : Inputs.parseRaw "-3,3" = .ok (-3, 3) := by decide
  have hvalue : (Expr.node .power (.param .p1) (.param .p2)).value? Expr.power
      (Word.ofInteger (-3)) (Word.ofInteger 3) = some 4294967269 := by decide
  have hsigned : Word.toSigned 4294967269 = -27 := by decide
  have hreply : (Service.handle s r b').1
      = ⟨200, .json (Service.runJson ["p1", "p2", "cpow"] ((-3, 3), -27)), none⟩ := by
    have hgiven : Service.inputsOf s ⟨["p1", "p2", "cpow"], none⟩ = .ok (-3, 3) := hinputs
    rw [← hsigned]
    exact Service.handle_workSession "WARNING" ["p1", "p2", "cpow"] hasks hgiven _ rfl rfl hvalue
  have hline : resultLine ["p1", "p2", "cpow"] (some (.int (-27))) ++ "\n"
      = "rerun p1 p2 cpow --> -27\n" := by decide
  have hcounterparts := Service.counterparts_workBench "-3,3" "WARNING"
  have houtcome : ∀ {tokens f}, Program.compileRaw tokens = .error f →
      outcome (inv tokens) b = .error f := by
    intro tokens f hrefused
    have hparsed : Inputs.parseRaw (inv tokens).settings.inputs = .ok (-3, 3) := hinputs
    have htokens : (Options.parse (inv tokens).args).2 = tokens := by
      rw [show (inv tokens).args = _ from rfl, parse_plainArgs]
    rw [outcome_of_parsed hparsed, htokens, Execution.run_runRaw_of_uncompiled hrefused]
  have hrefused : Program.compileRaw ["--", "p1"] = .error (.invalidToken 0 "--") :=
    Program.compileRaw_map ["--", "p1"]
  have hgarbled : Program.compileRaw [⟨[.half 0x4FF]⟩] =
      .error (.garbledToken 0 ⟨[.half 0x4FF]⟩) := by rfl
  refine ⟨hlevel, hstarted, hasks, hasks', hasks'', hcounterparts, hreply, fun style => ?_⟩
  obtain ⟨hresults, -, -⟩ := console_agrees_with_reply (inv ["p1", "p2", "cpow"]) rfl hlevel style
    hstarted hasks hcounterparts
  have hshown : ∀ value, outcome (inv ["p1", "p2", "cpow"]) b = .ok (some value) →
      ShownAsTaken value := by
    intro value hvalue
    obtain ⟨n, rfl⟩ := Execution.exists_int_of_outcome hvalue
    exact shownAsTaken_int n
  obtain ⟨hending, hstdout⟩ := (hresults.mpr hshown (-27)).mpr ⟨_, hreply⟩
  obtain ⟨-, hfault, -⟩ := console_agrees_with_reply (inv ["--", "p1"]) rfl hlevel style hstarted
    hasks' hcounterparts
  obtain ⟨hconsole, hexplained, -⟩ := hfault _ _ (houtcome hrefused) rfl
  obtain ⟨detail, -, hdetail⟩ := hexplained rfl
  obtain ⟨-, hfault', -⟩ := console_agrees_with_reply (inv [⟨[.half 0x4FF]⟩]) rfl hlevel style
    hstarted hasks'' hcounterparts
  obtain ⟨hconsole', -, hfails⟩ := hfault' _ _ (houtcome hgarbled) rfl
  exact ⟨hending, hstdout.trans hline, ⟨_, hconsole⟩, ⟨detail, _, _, hdetail⟩, ⟨_, hconsole'⟩,
    hfails rfl⟩

/-- **The log level parts the front ends.** The name of the log's layout, set as the log level: the
service has a result, and nobody handles the fault of the command line. -/
theorem log_level_parts_front_ends :
    let r : Service.Request := ⟨"POST", "/programs/run", some "application/json",
      some "\x7b\"tokens\": [\"p1\"]\x7d"⟩
    let inv : Invocation := ⟨Service.workSettings "665,1" "BASIC_FORMAT", .copying,
      ["--no-color", "--", "p1"], false, "main"⟩
    let b := Service.workBench (.counter Namer.defaultStem 3)
    let b' := Service.workBench (.counter Namer.defaultStem 1)
    Service.AsksToRun r ⟨["p1"], none⟩ ∧
      Execution.Counterparts (session inv) Service.workRenaming b b' ∧
      (∀ style, (run style inv b).1
        = ⟨"", "", .raised (.unknownLevel "%(levelname)s:%(name)s:%(message)s")⟩) ∧
      (Service.handle (session inv) r b').1
        = ⟨200, .json (Service.runJson ["p1"] ((665, 1), 665)), none⟩ := by
  intro r inv b b'
  have hasks : Service.AsksToRun r ⟨["p1"], none⟩ :=
    ⟨by decide, Service.exists_body_of_toOption (by decide +kernel)⟩
  have hinputs : Service.inputsOf (Service.workSession "665,1" "BASIC_FORMAT") ⟨["p1"], none⟩
      = .ok (665, 1) := by decide +kernel
  have hlevel : threshold "BASIC_FORMAT"
      = .error (.unknownLevel "%(levelname)s:%(name)s:%(message)s") := by decide
  refine ⟨hasks, Service.counterparts_workBench "665,1" "BASIC_FORMAT", fun style => ?_,
    Service.handle_workSession "BASIC_FORMAT" ["p1"] hasks hinputs (.param .p1) rfl rfl rfl⟩
  rw [run, show threshold inv.settings.logLevel = _ from hlevel]

end CommandLine

end StackLang
