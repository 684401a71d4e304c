import StackLang.Fault
import StackLang.FileTree
import StackLang.Namer
import StackLang.Record

/-!
# The bench

All that outlasts a single step of the work: the files, the namer, the assembled library once there
is one, the processes that were started, the log, and how many assemblies were begun. Work is a
step from one bench to the next that ends in a result or in a fault; what it has done to the bench
stays in either case.

## Main definitions

* `Bench`: the state
* `Work`: steps that may fail
* `Bench.tell`, `Bench.begin`, `Bench.mark`, `Bench.isAlive`: log and processes
-/

namespace StackLang

/-- What has become of a process. -/
inductive ProcessState
  | alive
  | ended
  | killed
  deriving DecidableEq, Repr

/-- The state of the work. -/
structure Bench where
  files : FileTree
  namer : Namer
  library : Option Bytes := none
  processes : List ProcessState := []
  log : List Record := []
  assemblies : Nat := 0
  deriving DecidableEq, Repr

/-- Work on a bench. -/
abbrev Work := ExceptT Fault (StateM Bench)

namespace Bench

/-- One more record in the log. -/
def tell (b : Bench) (r : Record) : Bench := { b with log := b.log ++ [r] }

/-- Start a process: its number, and the bench with it. -/
def begin (b : Bench) : Nat × Bench :=
  (b.processes.length, { b with processes := b.processes ++ [.alive] })

/-- Say what has become of a process. -/
def mark (b : Bench) (number : Nat) (state : ProcessState) : Bench :=
  { b with processes := b.processes.set number state }

/-- Whether a process runs, as far as is known. -/
def isAlive (b : Bench) (number : Nat) : Bool := b.processes[number]? = some .alive

/-- A process runs if it was just started, or if it ran before. -/
theorem isAlive_begin (b : Bench) (number : Nat) :
    b.begin.2.isAlive number = (decide (number = b.processes.length) || b.isAlive number) := by
  simp only [isAlive, begin, List.getElem?_append, List.getElem?_singleton]
  by_cases hlt : number < b.processes.length
  · simp [hlt, Nat.ne_of_lt hlt]
  · rw [if_neg hlt, List.getElem?_eq_none (Nat.le_of_not_lt hlt)]
    by_cases heq : number = b.processes.length
    · simp [heq]
    · have hpos : number - b.processes.length ≠ 0 := by omega
      simp [heq, hpos]

/-- A process that is known not to run any more does not, and the others are as before. -/
theorem isAlive_mark (b : Bench) (number other : Nat) {state : ProcessState}
    (h : state ≠ .alive) :
    (b.mark number state).isAlive other = (decide (other ≠ number) && b.isAlive other) := by
  simp only [isAlive, mark, List.getElem?_set]
  by_cases heq : number = other
  · subst heq
    by_cases hlt : number < b.processes.length <;> simp [hlt, h]
  · simp [heq, Ne.symm heq]

end Bench

namespace Work

/-- One more record in the log. -/
def tell (r : Record) : Work Unit := modify (·.tell r)

/-- A result that is there already, or a fault. -/
def ofExcept {α : Type} : Except Fault α → Work α
  | .ok a => pure a
  | .error f => throw f

end Work

end StackLang
