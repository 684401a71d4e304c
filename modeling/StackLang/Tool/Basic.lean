import StackLang.FileTree

/-!
# Assembling tools

A tool is a program that is started with a list of words and works on files. Once it runs, it is a
row of acts, each of which sees the files and what the tool remembers, and then an end: an exit
code, a signal, or no end at all. What it writes to its error channel is known beforehand.

## Main definitions

* `Process`: a tool that runs
* `Tool`: what a command line starts, or why it starts nothing
* `Process.act`: one act
* `Process.isOver`: whether there is nothing left to do but to end
* `Tool.copying`: the tool that hands its input on unchanged
-/

namespace StackLang

/-- How a tool ends. -/
inductive Ending
  | exited (code : Nat)
  | signalled (number : Nat)
  | endless
  deriving DecidableEq, Repr

/-- One act of a tool: what it remembers and the files, before and after. -/
abbrev Act := Bytes → FileTree → Bytes × FileTree

/-- A tool that runs: what it remembers, what it has still to do, what it writes to its error
channel, and how it ends. -/
structure Process where
  memory : Bytes
  acts : List Act
  stderr : Bytes
  ending : Ending

/-- What comes of starting a tool. -/
inductive Launch
  | refused (errno : Errno)
  | started (process : Process)

/-- What a command line starts. -/
abbrev Tool := List String → FileTree → Launch

/-- The first act that is left, if there is one. -/
def Process.act (p : Process) (t : FileTree) : Process × FileTree :=
  match p.acts with
  | [] => (p, t)
  | act :: acts => ({ p with memory := (act p.memory t).1, acts }, (act p.memory t).2)

/-- Whether the tool has done all its acts and comes to an end. -/
def Process.isOver (p : Process) : Bool := p.acts.isEmpty && p.ending ≠ .endless

namespace Act

/-- Remember the contents of a file. -/
def reading (p : Path) : Act := fun memory t =>
  match t.read p with
  | .ok bytes => (bytes, t)
  | .error _ => (memory, t)

/-- Write what is remembered to a file. -/
def writing (p : Path) : Act := fun memory t =>
  match t.write p memory with
  | .ok t' => (memory, t')
  | .error _ => (memory, t)

/-- Remove a file. -/
def removing (p : Path) : Act := fun memory t =>
  match t.remove p with
  | .ok t' => (memory, t')
  | .error _ => (memory, t)

/-- Make a directory. -/
def making (p : Path) : Act := fun memory t =>
  match t.makeDirectory p with
  | .ok t' => (memory, t')
  | .error _ => (memory, t)

/-- Make a link. -/
def linking (target p : Path) : Act := fun memory t =>
  match t.makeLink target p with
  | .ok t' => (memory, t')
  | .error _ => (memory, t)

/-- Remember something else. -/
def recalling (bytes : Bytes) : Act := fun _ t => (bytes, t)

end Act

namespace Tool

/-- The input of a command line: the word before `-o` and the output. -/
def inputOf (argv : List String) : Path := .ofString ((argv.reverse[2]?).getD "")

/-- The output of a command line: its last word. -/
def outputOf (argv : List String) : Path := .ofString ((argv.reverse[0]?).getD "")

/-- The acts of copying the input to the output. -/
def copyActs (argv : List String) : List Act := [.reading (inputOf argv), .writing (outputOf argv)]

/-- The tool that hands its input on unchanged, whatever it is called. -/
def copying : Tool := fun argv _ => .started ⟨[], copyActs argv, [], .exited 0⟩

end Tool

end StackLang
