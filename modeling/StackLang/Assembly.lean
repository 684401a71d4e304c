import StackLang.Bench
import StackLang.Seconds
import StackLang.Signal
import StackLang.Tool.Basic

/-!
# Assemblies

One assembly stages a text under a fresh name, has a tool make a binary of it, reads the binary and
clears up. It goes through phases, one step at a time, so that several assemblies can share a bench
in any order of their steps. Only while the tool is waited for can something from outside happen:
the time is up, or the caller gives up. A tool that still runs is then killed before anything is
cleared. A tool that has ended in the meantime is left alone, even if nobody has noticed its end.

A text that has no bytes leaves an empty file, and the tool is not started. With a time limit that
cannot be waited for, the time is up as soon as the tool was started.

Whatever the result is, it goes through the two clearing phases, which can only add warnings. A
path with a null character is the one exception: it cannot be cleared, and says so.

## Main definitions

* `Assembler`: the settings of assemblies
* `Assembly.Phase`, `Assembly.step`: the phases and the steps between them
* `Assembly.assemble`: a whole assembly
* `Assembly.assembleAll`, `Assembly.assembleCancelled`: several at once, and one that is given up
* `Assembly.staged`: other work on a staged pair of files
-/

namespace StackLang

/-- How texts are assembled. -/
structure Assembler where
  command : List String
  directory : Path
  timeout : Seconds
  deriving DecidableEq, Repr

namespace Assembly

/-- The two files of an assembly. -/
structure Pair where
  source : Path
  output : Path
  deriving DecidableEq, Repr

/-- The files under a name. -/
def Pair.under (directory : Path) (name : String) : Pair :=
  ⟨directory.join (.ofString (name ++ ".wat")), directory.join (.ofString (name ++ ".wasm"))⟩

/-- What is to be assembled, and how. -/
structure Job where
  assembler : Assembler
  text : RawText
  cleanup : Bool
  deriving DecidableEq, Repr

/-- The command line of the tool. -/
def Job.argv (job : Job) (pair : Pair) : List String :=
  job.assembler.command ++ [pair.source.text, "-o", pair.output.text]

/-- The phases of an assembly. -/
inductive Phase
  /-- The directory is to be made. -/
  | opening
  /-- A name is to be drawn. -/
  | naming
  /-- The text is to be written. -/
  | writing (pair : Pair)
  /-- The tool is to be started. -/
  | launching (pair : Pair)
  /-- The tool runs, or its end has not been noticed yet. -/
  | waiting (pair : Pair) (number : Nat) (process : Process)
  /-- The tool is to be killed. -/
  | killing (pair : Pair) (number : Nat) (fault : Fault)
  /-- The binary is to be read. -/
  | reading (pair : Pair)
  /-- The text is to be removed. -/
  | clearing (pair : Pair) (result : Except Fault Bytes)
  /-- The binary is to be removed. -/
  | clearingOutput (pair : Pair) (result : Except Fault Bytes)
  /-- All is done. -/
  | finished (result : Except Fault Bytes)

/-- What happens next while the tool is waited for. -/
inductive Event
  /-- The tool goes on. If it ends, this is noticed. -/
  | proceeds
  /-- The tool ends, and this is not noticed yet. -/
  | exits
  /-- The time is up. -/
  | timedOut
  /-- The caller gives up. -/
  | cancelled
  deriving DecidableEq, Repr

/-! ## Single steps -/

/-- Make the directory of an assembly. -/
def openDirectory (directory : Path) (b : Bench) : Except Fault Unit × Bench :=
  match b.files.makeDirectories directory with
  | (files, .ok ()) => (.ok (), { b with files })
  | (files, .error e) => (.error (.ofFile "create" directory e), { b with files })

/-- Draw a name for the files of an assembly. -/
def drawPair (directory : Path) (b : Bench) : Pair × Bench :=
  (Pair.under directory b.namer.draw.1, { b with namer := b.namer.draw.2 })

/-- What a file holds once a text was written to it: nothing, if the text has no bytes. -/
def contents (text : RawText) : Bytes := text.encode.toOption.getD []

/-- Write a text to a file. The file is opened before it shows that the text has no bytes. -/
def writeText (path : Path) (text : RawText) (b : Bench) : Except Fault Unit × Bench :=
  match b.files.write path (contents text) with
  | .error e => (.error (.ofFile "write" path e), b)
  | .ok files =>
    match text.encode with
    | .ok _ => (.ok (), { b with files })
    | .error flaw => (.error (.unencodable flaw), { b with files })

/-- Read a file. -/
def readBytes (path : Path) (b : Bench) : Except Fault Bytes :=
  match b.files.read path with
  | .ok bytes => .ok bytes
  | .error e => .error (.ofFile "read" path e)

/-- Remove a staged file. A missing file is fine, and one that cannot be removed is only told
about. -/
def removeStaged (path : Path) (b : Bench) : Except Fault Unit × Bench :=
  match b.files.remove path with
  | .ok files => (.ok (), { b with files })
  | .error .nul => (.error .nul, b)
  | .error (.os e) => (.ok (), if e.errno = .notFound then b else b.tell (.notRemoved path))

/-- A tool that could not be started. -/
def startFault (argv : List String) (errno : Errno) : Fault :=
  .tool ⟨argv, none, none, "",
    some ("could not be started (" ++ (OsError.mk errno (argv.headD "")).message ++ ")")⟩

/-- A tool that did not end in time, or for which nobody could wait. -/
def timeoutFault (argv : List String) (timeout : Seconds) : Fault :=
  if timeout.isHuge then .hugeTimeout
  else .tool ⟨argv, none, none, "", some ("timed out after " ++ timeout.brief ++ "s")⟩

/-- A tool that ended with an exit code other than zero. -/
def exitFault (argv : List String) (code : Nat) (stderr : Bytes) : Fault :=
  .tool ⟨argv, some (code : Int), none, Text.decodeLenient stderr, none⟩

/-- A tool that died by a signal. -/
def signalFault (argv : List String) (number : Nat) (stderr : Bytes) : Fault :=
  .tool ⟨argv, some (-(number : Int)), some (Signal.nameOf number), Text.decodeLenient stderr,
    none⟩

/-- Start the tool. -/
def launch (tool : Tool) (job : Job) (pair : Pair) (b : Bench) : Phase × Bench :=
  let argv := job.argv pair
  let told := b.tell (.running argv)
  if argv.any FileTree.hasNul then (.clearing pair (.error .nul), told)
  else match tool argv b.files with
    | .refused errno => (.clearing pair (.error (startFault argv errno)), told)
    | .started process => (.waiting pair told.begin.1 process, told.begin.2)

/-- The tool goes on: by one act, or by its end. -/
def proceed (job : Job) (pair : Pair) (number : Nat) (process : Process) (b : Bench) :
    Phase × Bench :=
  match process.acts with
  | _ :: _ =>
    (.waiting pair number (process.act b.files).1, { b with files := (process.act b.files).2 })
  | [] =>
    match process.ending with
    | .endless => (.waiting pair number process, b)
    | .exited 0 => (.reading pair, b.mark number .ended)
    | .exited code =>
      (.clearing pair (.error (exitFault (job.argv pair) code process.stderr)),
        b.mark number .ended)
    | .signalled signal =>
      (.clearing pair (.error (signalFault (job.argv pair) signal process.stderr)),
        b.mark number .ended)

/-- The tool ends, if it has nothing left to do. -/
def exit (number : Nat) (process : Process) (b : Bench) : Bench :=
  if process.isOver then b.mark number .ended else b

/-- The tool is waited for no longer. If it runs, it is to be killed. -/
def abandon (pair : Pair) (number : Nat) (fault : Fault) (b : Bench) : Phase × Bench :=
  if b.isAlive number then (.killing pair number fault, b) else (.clearing pair (.error fault), b)

/-- Kill the tool and wait for its end. A caller that gives up now cuts the wait short. -/
def kill (event : Event) (pair : Pair) (number : Nat) (fault : Fault) (b : Bench) :
    Phase × Bench :=
  if event = .cancelled then (.clearing pair (.error .cancelled), b.mark number .killed)
  else (.clearing pair (.error fault), (b.mark number .killed).tell (.killed number))

/-- One step of an assembly. The event matters only while the tool, or its end, is waited for. -/
def step (tool : Tool) (job : Job) (event : Event) : Phase × Bench → Phase × Bench
  | (.opening, b) =>
    match openDirectory job.assembler.directory b with
    | (.ok (), b') => (.naming, b')
    | (.error f, b') => (.finished (.error f), b')
  | (.naming, b) =>
    let (pair, b') := drawPair job.assembler.directory b
    (.writing pair, b')
  | (.writing pair, b) =>
    match writeText pair.source job.text b with
    | (.ok (), b') => (.launching pair, b')
    | (.error f, b') => (.clearing pair (.error f), b')
  | (.launching pair, b) => launch tool job pair b
  | (.waiting pair number process, b) =>
    match event with
    | .proceeds => proceed job pair number process b
    | .exits => (.waiting pair number process, exit number process b)
    | .timedOut => abandon pair number (timeoutFault (job.argv pair) job.assembler.timeout) b
    | .cancelled => abandon pair number .cancelled b
  | (.killing pair number fault, b) => kill event pair number fault b
  | (.reading pair, b) => (.clearing pair (readBytes pair.output b), b)
  | (.clearing pair result, b) =>
    if job.cleanup then
      match removeStaged pair.source b with
      | (.ok (), b') => (.clearingOutput pair result, b')
      | (.error f, b') => (.finished (.error f), b')
    else (.finished result, b.tell (.keeping pair.source pair.output))
  | (.clearingOutput pair result, b) =>
    match removeStaged pair.output b with
    | (.ok (), b') => (.finished result, b')
    | (.error f, b') => (.finished (.error f), b')
  | (.finished result, b) => (.finished result, b)

/-! ## Whole assemblies -/

/-- What happens when nothing comes from outside but the time limit: it strikes at once when it is
an instant, and otherwise only a tool that never ends. -/
def expected (job : Job) : Phase → Event
  | .waiting _ _ process =>
    if job.assembler.timeout.isInstant then .timedOut
    else match process.acts, process.ending with
      | [], .endless => .timedOut
      | _, _ => .proceeds
  | _ => .proceeds

/-- Some steps of an assembly that is left to itself. -/
def advance (tool : Tool) (job : Job) : Nat → Phase × Bench → Phase × Bench
  | 0, s => s
  | n + 1, s => advance tool job n (step tool job (expected job s.1) s)

/-- How many steps lead to the running tool, or past it. -/
def stepsToLaunch : Nat := 4

/-- How many steps an assembly whose tool has been started can take at most. -/
def Phase.remaining : Phase → Nat
  | .waiting _ _ process => process.acts.length + 5
  | _ => 5

/-- Go on until the end. -/
def complete (tool : Tool) (job : Job) (s : Phase × Bench) : Phase × Bench :=
  advance tool job s.1.remaining s

/-- An assembly that is about to begin. -/
def fresh (b : Bench) : Phase × Bench := (.opening, { b with assemblies := b.assemblies + 1 })

/-- The result of an assembly that has come to its end. -/
def Phase.result : Phase → Except Fault Bytes
  | .finished result => result
  | _ => .error .cancelled

/-- A whole assembly. -/
def assemble (tool : Tool) (job : Job) : Work Bytes := fun b =>
  let s := complete tool job (advance tool job stepsToLaunch (fresh b))
  (s.1.result, s.2)

/-! ## Several assemblies, and one that is given up -/

/-- Begin assemblies up to the start of their tools, one after the other. -/
def beginAll (tool : Tool) : List Job → Bench → List (Job × Phase) × Bench
  | [], b => ([], b)
  | job :: jobs, b =>
    let s := advance tool job stepsToLaunch (fresh b)
    let (rest, b') := beginAll tool jobs s.2
    ((job, s.1) :: rest, b')

/-- Complete assemblies one after the other. -/
def completeAll (tool : Tool) : List (Job × Phase) → Bench → List (Except Fault Bytes) × Bench
  | [], b => ([], b)
  | (job, phase) :: rest, b =>
    let s := complete tool job (phase, b)
    let (results, b') := completeAll tool rest s.2
    (s.1.result :: results, b')

/-- Several assemblies whose tools run at the same time. The first fault counts. -/
def assembleAll (tool : Tool) (jobs : List Job) : Work (List Bytes) := fun b =>
  let (begun, b') := beginAll tool jobs b
  let (results, b'') := completeAll tool begun b'
  (results.mapM id, b'')

/-- Let the tool do all its acts. -/
def exhaust (tool : Tool) (job : Job) (s : Phase × Bench) : Phase × Bench :=
  match s.1 with
  | .waiting _ _ process => advance tool job process.acts.length s
  | _ => s

/-- An assembly that is given up when the tool has done all it does before its end. -/
def assembleCancelled (tool : Tool) (job : Job) : Work Bytes := fun b =>
  let s := exhaust tool job (advance tool job stepsToLaunch (fresh b))
  let s' := complete tool job (step tool job .cancelled s)
  (s'.1.result, s'.2)

/-! ## Other work on staged files -/

/-- Clear a pair of files. -/
def clear {α : Type} (cleanup : Bool) (pair : Pair) (result : Except Fault α) (b : Bench) :
    Except Fault α × Bench :=
  if cleanup then
    match removeStaged pair.source b with
    | (.error f, b') => (.error f, b')
    | (.ok (), b') =>
      match removeStaged pair.output b' with
      | (.error f, b'') => (.error f, b'')
      | (.ok (), b'') => (result, b'')
  else (result, b.tell (.keeping pair.source pair.output))

/-- Work on a pair of files that is staged before and cleared after it. -/
def staged {α : Type} (directory : Path) (cleanup : Bool) (work : Pair → Work α) : Work α :=
  fun b =>
    match openDirectory directory b with
    | (.error f, b') => (.error f, b')
    | (.ok (), b') =>
      let (pair, named) := drawPair directory b'
      let (result, done) := (work pair).run.run named
      clear cleanup pair result done

end Assembly

end StackLang
