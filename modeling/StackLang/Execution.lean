import StackLang.Engine
import StackLang.Program
import StackLang.Settings
import StackLang.Wasm.PowerLibrary

/-!
# Execution

The way from tokens to a result: compile, load the library if the program needs it, assemble,
link, call. A program that does not compile has no effect at all. The library is assembled once per
bench; one that was assembled elsewhere can be set and is then read every time.

## Main definitions

* `Execution.Session`: what all programs share: settings, tool and assembler
* `Execution.loadLibrary`: the assembled library
* `Execution.importProgram`, `Execution.compute`, `Execution.runProgram`: the way to the result
* `Execution.compileRaw`, `Execution.runRaw`: the same for raw tokens
-/

namespace StackLang

namespace Execution

/-- What programs are run with. An assembler that could not be made is a fault only when a program
gets that far. -/
structure Session where
  settings : Settings
  tool : Tool
  assembler : Except Fault Assembler

/-- Compile, and tell about it. -/
def compile (tokens : List String) : Work Program := do
  let p ← Work.ofExcept (Program.compile tokens)
  Work.tell (.compiled p.instrs.length p.imports)
  return p

/-- Every way to end a line as a line break. -/
def unifyBreaks : List Char → List Char
  | [] => []
  | '\r' :: '\n' :: cs => '\n' :: unifyBreaks cs
  | c :: cs => (if c = '\r' then '\n' else c) :: unifyBreaks cs

/-- Read a file. -/
def fetchBytes (path : Path) : Work Bytes := do
  Work.ofExcept (Assembly.readBytes path (← get))

/-- The text of the library. -/
def libraryText : LibrarySource → Work String
  | .bundled => pure Wasm.powerLibrary
  | .file path => do
    match Text.decode? (← fetchBytes path) with
    | some s => return String.ofList (unifyBreaks s.toList)
    | none => throw .notUtf8

/-- Assemble a text. -/
def assemble (s : Session) (assembler : Assembler) (cleanup : Bool) (text : String) : Work Bytes :=
  Assembly.assemble s.tool ⟨assembler, text, cleanup⟩

/-- The assembled library: the one that is set, the one that was assembled before, or one that is
assembled now and kept. -/
def loadLibrary (s : Session) (assembler : Assembler) (cleanup : Bool) : Work Bytes := do
  match s.settings.prebuiltLibrary? with
  | some path =>
    Work.tell (.prebuilt path)
    fetchBytes path
  | none =>
    match (← get).library with
    | some bytes => return bytes
    | none =>
      let text ← libraryText s.settings.librarySource
      let bytes ← assemble s assembler cleanup text
      modify fun b => { b with library := some bytes }
      return bytes

/-- A program that can be called. -/
structure Linked where
  call : Int × Int → Except Engine.Failure (Option Value)
  program : Option Program

/-- A failure of the engine as a fault, with `told` for what the engine says. -/
def ofFailure (told : String → Fault) : Engine.Failure → Fault
  | .told cause => told cause
  | .raised text => .raised text

/-- Link an assembled program with its library. -/
def link [Engine] (binary : Bytes) (library : Option Bytes) (program : Option Program) :
    Except Fault Linked :=
  match Engine.link binary library with
  | .ok call => .ok ⟨call, program⟩
  | .error e => .error (ofFailure .link e)

/-- Compile, assemble and link a program. -/
def importProgram [Engine] (s : Session) (cleanup : Bool) (tokens : List String) : Work Linked := do
  let p ← compile tokens
  let assembler ← Work.ofExcept s.assembler
  let library ← if p.needsLibrary then some <$> loadLibrary s assembler cleanup else pure none
  let binary ← assemble s assembler cleanup p.text
  Work.ofExcept (link binary library (some p))

/-- Call a linked program. -/
def compute (p : Linked) (inputs : Int × Int) : Except Fault (Option Value) :=
  match p.call inputs with
  | .ok result => .ok result
  | .error e => .error (ofFailure .trap e)

/-- Run a program on two inputs. -/
def runProgram [Engine] (s : Session) (cleanup : Bool) (tokens : List String)
    (inputs : Int × Int) : Work (Option Value) := do
  let p ← importProgram s cleanup tokens
  Work.ofExcept (compute p inputs)

/-! ## Raw tokens -/

/-- Compile raw tokens, and tell about it. -/
def compileRaw (tokens : List RawText) : Work Program := do
  compile (← Work.ofExcept (Program.textsOf tokens))

/-- Run raw tokens on two inputs. -/
def runRaw [Engine] (s : Session) (cleanup : Bool) (tokens : List RawText)
    (inputs : Int × Int) : Work (Option Value) := do
  runProgram s cleanup (← Work.ofExcept (Program.textsOf tokens)) inputs

end Execution

end StackLang
