import StackLang.Proofs.FailingStages

/-!
# Files that are kept

An assembly can be told to keep its files. Apart from the files themselves this makes no difference:
whatever the tool does, under whatever name and whatever happens meanwhile, the assembly that clears
up and the one that does not come to the same result and leave the same bench, up to what is told
and up to the files at the two paths.

The two are followed side by side. As long as nothing is cleared they are one and the same. When
they part, one has ended and the other has two removals before it, each of which takes away at most
one file or link and no directory, so that the paths have no other places than before. A removal
that is refused leaves the result alone. The one exception is a path with a null character: such a
removal ends in a fault of its own. But then the text could not be written either, for the same
reason and with the same fault.

## Main definitions

* `Namer.after` — the namer after some names
* `Assembly.Cleared` — what clearing up takes away
* `Assembly.Underway` — assemblies that have not begun to clear up
* `Assembly.SideBySide` — an assembly that keeps its files and one that clears them, side by side

## Main results

* `Assembly.Cleared.removed` — what one removal takes away
* `Assembly.SideBySide.step` — what each step does to the two
* `Assembly.cleanup_keeps_outcome` — clearing up keeps the outcome
-/

namespace StackLang

/-- The namer after `count` names were drawn. -/
def Namer.after : (count : Nat) → Namer → Namer
  | 0, namer => namer
  | count + 1, namer => after count namer.draw.2

namespace Assembly

open FileTree (hasNul Thinned)

/-! ## Null characters -/

theorem write_of_hasNul {p : Path} (h : hasNul p.text = true) (t : FileTree) (bytes : Bytes) :
    t.write p bytes = .error .nul := by
  simp [FileTree.write, FileTree.reach, FileTree.ask, h, bind, Except.bind]

theorem removeStaged_of_hasNul {path : Path} (h : hasNul path.text = true) (b : Bench) :
    removeStaged path b = (.error .nul, b) := by
  have hremove : b.files.remove path = .error .nul := by
    simp [FileTree.remove, FileTree.locate, FileTree.ask, h, bind, Except.bind]
  rw [removeStaged, hremove]

/-! ## What clearing up takes away -/

/-- From the bench of an assembly that kept its files, at most files and links at the places of its
paths are taken away. The log may be another one, and all else is the same. -/
structure Cleared (pair : Pair) (kept cleared : Bench) : Prop where
  bench : ∃ files log, cleared = { kept with files, log }
  here : cleared.files.here = kept.files.here
  sealed : cleared.files.sealed = kept.files.sealed
  bodies : cleared.files.bodies = kept.files.bodies
  get? : ∀ loc, cleared.files.get? loc = kept.files.get? loc ∨
    (∃ r, kept.files.locate (pair.file r) = .ok loc) ∧
      kept.files.get? loc ≠ some .directory ∧ cleared.files.get? loc = none

/-- A removal takes away one file or link, or leaves the files as they are. -/
theorem removeStaged_cases (path : Path) (b : Bench) :
    (∃ loc, b.files.locate path = .ok loc ∧ b.files.get? loc ≠ some .directory ∧
        (removeStaged path b).2.files = b.files.erase loc) ∨
      (removeStaged path b).2.files = b.files := by
  rcases FileTree.remove_cases b.files path with
    ⟨loc, node, hloc, hnode, hdir, hremove⟩ | ⟨-, e, he, -⟩
  · refine .inl ⟨loc, hloc, ?_, by rw [removeStaged, hremove]⟩
    rw [hnode]
    exact fun heq => hdir (Option.some.inj heq)
  · refine .inr ?_
    rw [removeStaged, he]
    cases e with
    | nul => rfl
    | os e =>
      dsimp only
      split <;> rfl

namespace Cleared

variable {pair : Pair} {kept b b' : Bench}

/-- What is told makes no difference. -/
theorem of_tell (pair : Pair) (b : Bench) (r : Record) : Cleared pair (b.tell r) b :=
  ⟨⟨b.files, b.log, rfl⟩, rfl, rfl, rfl, fun _ => .inl rfl⟩

theorem refl (pair : Pair) (b : Bench) : Cleared pair b b :=
  ⟨⟨b.files, b.log, rfl⟩, rfl, rfl, rfl, fun _ => .inl rfl⟩

theorem namer_eq (h : Cleared pair kept b) : b.namer = kept.namer := by
  obtain ⟨files, log, rfl⟩ := h.bench
  rfl

/-- No directory is taken away. -/
theorem thinned (h : Cleared pair kept b) : Thinned kept.files b.files := by
  refine ⟨h.here, fun loc => ?_⟩
  exact (h.get? loc).imp_right fun ⟨_, hdir, hnone⟩ => ⟨hnone, hdir⟩

/-- **One removal takes away one file** at the places of the paths, or nothing. -/
theorem removed (h : Cleared pair kept b) {r : Role} {outcome : Except Fault Unit}
    (hremove : removeStaged (pair.file r) b = (outcome, b')) : Cleared pair kept b' := by
  have hbench : ∃ files log, b' = { kept with files, log } := by
    obtain ⟨files, log, rfl⟩ := removeStaged_frame hremove
    obtain ⟨files', log', rfl⟩ := h.bench
    exact ⟨files, log, rfl⟩
  have hcases := removeStaged_cases (pair.file r) b
  rw [hremove] at hcases
  rcases hcases with ⟨loc, hloc, hdir, hfiles⟩ | hfiles
  · have hne : loc ≠ [] := FileTree.ne_nil_of_get?_ne hdir
    refine ⟨hbench, by rw [hfiles]; exact h.here, by rw [hfiles]; exact h.sealed,
      by rw [hfiles]; exact h.bodies, fun other => ?_⟩
    rw [hfiles, FileTree.get?_erase _ hne]
    by_cases hother : other = loc
    · subst hother
      rw [if_pos rfl]
      refine .inr ⟨⟨r, h.thinned.locate hloc⟩, ?_, rfl⟩
      -- what is taken away now is what was kept, unless it was taken away before
      rcases h.get? other with hsame | ⟨-, hkept, -⟩
      · exact hsame ▸ hdir
      · exact hkept
    · rw [if_neg hother]
      exact h.get? other
  · exact ⟨hbench, hfiles ▸ h.here, hfiles ▸ h.sealed, hfiles ▸ h.bodies,
      fun other => hfiles ▸ h.get? other⟩

end Cleared

/-! ## Before anything is cleared -/

/-- An assembly under the name has not begun to clear up. Once its text is written, the paths hold
no null character; when one kept it from being written, this is what the result says. -/
inductive Underway (directory : Path) (name : String) : Phase × Bench → Prop
  | opening {b} (hname : b.namer.draw.1 = name) : Underway directory name (.opening, b)
  | naming {b} (hname : b.namer.draw.1 = name) : Underway directory name (.naming, b)
  | writing {b} : Underway directory name (.writing (.under directory name), b)
  | launching {b} (hnul : hasNul (Pair.under directory name).source.text = false) :
    Underway directory name (.launching (.under directory name), b)
  | waiting {b number process} (hnul : hasNul (Pair.under directory name).source.text = false) :
    Underway directory name (.waiting (.under directory name) number process, b)
  | killing {b number fault} (hnul : hasNul (Pair.under directory name).source.text = false) :
    Underway directory name (.killing (.under directory name) number fault, b)
  | reading {b} (hnul : hasNul (Pair.under directory name).source.text = false) :
    Underway directory name (.reading (.under directory name), b)
  | clearing {b result}
    (hnul : hasNul (Pair.under directory name).source.text = true → result = .error .nul) :
    Underway directory name (.clearing (.under directory name) result, b)
  | unopened {b result} : Underway directory name (.finished result, b)

/-- An assembly that keeps its files, and beside it the one that clears them. -/
inductive SideBySide (directory : Path) (name : String) : Phase × Bench → Phase × Bench → Prop
  /-- Nothing is cleared yet. -/
  | together {s} (h : Underway directory name s) : SideBySide directory name s s
  /-- One has ended, and the other has tried to remove the text. -/
  | parted {result kept b} (hnul : hasNul (Pair.under directory name).output.text = false)
    (h : Cleared (.under directory name) kept b) :
    SideBySide directory name (.finished result, kept)
      (.clearingOutput (.under directory name) result, b)
  /-- Both have ended. -/
  | ended {result kept b} (h : Cleared (.under directory name) kept b) :
    SideBySide directory name (.finished result, kept) (.finished result, b)

section

variable {tool : Tool} {job : Job} {event : Event} {name : String} {s s' : Phase × Bench}

theorem Moves.underway (hmoves : Moves tool job event s s')
    (h : Underway job.assembler.directory name s)
    (hs : ∀ pair result, s.1 ≠ .clearing pair result) :
    Underway job.assembler.directory name s' := by
  have hspoken : ∀ {result : Except Fault Bytes},
      hasNul (Pair.under job.assembler.directory name).source.text = false →
        hasNul (Pair.under job.assembler.directory name).source.text = true →
          result = .error .nul :=
    fun hnul hnul' => absurd (hnul.symm.trans hnul') Bool.false_ne_true
  cases h with
  | opening hname =>
    cases hmoves with
    | opened => exact .naming hname
    | unopened => exact .unopened
  | naming hname =>
    cases hmoves with
    | named => exact hname ▸ .writing
  | writing =>
    cases hmoves with
    | wrote _ hwrite =>
      obtain ⟨loc, hreach, -⟩ := FileTree.exists_of_write hwrite
      exact .launching (FileTree.reach_eq_ok_iff.mp hreach).1
    | unencoded _ hwrite =>
      obtain ⟨loc, hreach, -⟩ := FileTree.exists_of_write hwrite
      exact .clearing (hspoken (FileTree.reach_eq_ok_iff.mp hreach).1)
    | unwritten hwrite =>
      refine .clearing fun hnul => ?_
      rw [write_of_hasNul hnul] at hwrite
      cases hwrite
      rfl
  | launching hnul =>
    cases hmoves with
    | unspoken => exact .clearing (hspoken hnul)
    | refused => exact .clearing (hspoken hnul)
    | started => exact .waiting hnul
  | waiting hnul =>
    cases hmoves with
    | acted => exact .waiting hnul
    | idled => exact .waiting hnul
    | succeeded => exact .reading hnul
    | failed => exact .clearing (hspoken hnul)
    | died => exact .clearing (hspoken hnul)
    | ended => exact .waiting hnul
    | unended => exact .waiting hnul
    | timedOut => exact .killing hnul
    | timedOutLate => exact .clearing (hspoken hnul)
    | cancelled => exact .killing hnul
    | cancelledLate => exact .clearing (hspoken hnul)
  | killing hnul =>
    cases hmoves with
    | killed => exact .clearing (hspoken hnul)
    | interrupted => exact .clearing (hspoken hnul)
  | reading hnul =>
    cases hmoves with
    | fetched => exact .clearing (hspoken hnul)
  | clearing => exact absurd rfl (hs _ _)
  | unopened =>
    cases hmoves with
    | stayed => exact .unopened

/-- Only when the files are to be cleared does it matter whether they are. -/
theorem step_of_cleanup (hs : ∀ pair result, s.1 ≠ .clearing pair result) (cleanup : Bool) :
    step tool { job with cleanup } event s = step tool job event s := by
  obtain ⟨phase, b⟩ := s
  cases phase with
  | clearing pair result => exact absurd rfl (hs pair result)
  | _ => rfl

/-! ## Side by side -/

/-- Where the two part. -/
theorem sideBySide_step_clearing {result : Except Fault Bytes} {b : Bench}
    (hnul : hasNul (Pair.under job.assembler.directory name).source.text = true →
      result = .error .nul) :
    SideBySide job.assembler.directory name
      (step tool { job with cleanup := false } event
        (.clearing (.under job.assembler.directory name) result, b))
      (step tool { job with cleanup := true } event
        (.clearing (.under job.assembler.directory name) result, b)) := by
  have htold := Cleared.of_tell (.under job.assembler.directory name) b
    (.keeping (Pair.under job.assembler.directory name).source
      (Pair.under job.assembler.directory name).output)
  cases hsource : hasNul (Pair.under job.assembler.directory name).source.text with
  | true =>
    -- neither could the text be written nor can it be removed, and both faults are the same
    obtain rfl := hnul hsource
    simp only [step, removeStaged_of_hasNul hsource]
    exact .ended htold
  | false =>
    rcases hremove : removeStaged (Pair.under job.assembler.directory name).source b
      with ⟨f | ⟨⟩, b'⟩
    · cases hsource.symm.trans (removeStaged_error hremove).2
    · simp only [step, hremove]
      refine .parted ?_ (htold.removed (r := .source) hremove)
      exact (hasNul_under job.assembler.directory name .output .source).trans hsource

/-- When the files are kept and the assembly has ended, the one that clears them ends with its next
step. -/
theorem SideBySide.exists_finished {directory : Path} {result : Except Fault Bytes} {kept : Bench}
    (h : SideBySide directory name (.finished result, kept) s') :
    ∃ b, Assembly.step tool job event s' = (.finished result, b) ∧
      Cleared (.under directory name) kept b := by
  cases h with
  | together => exact ⟨kept, rfl, .refl _ _⟩
  | @parted _ _ b hnul h =>
    rcases hremove : removeStaged (Pair.under directory name).output b with ⟨f | ⟨⟩, b'⟩
    · cases hnul.symm.trans (removeStaged_error hremove).2
    · exact ⟨b', by simp only [Assembly.step, hremove], h.removed (r := .output) hremove⟩
  | ended h => exact ⟨_, rfl, h⟩

/-- **A step of each keeps the two side by side.** -/
theorem SideBySide.step (h : SideBySide job.assembler.directory name s s') :
    SideBySide job.assembler.directory name
      (Assembly.step tool { job with cleanup := false } event s)
      (Assembly.step tool { job with cleanup := true } event s') := by
  cases h with
  | together h =>
    by_cases hs : ∀ pair result, s.1 ≠ .clearing pair result
    · rw [step_of_cleanup hs false, step_of_cleanup hs true]
      exact .together ((step_moves tool job event s).underway h hs)
    · cases h with
      | clearing hnul => exact sideBySide_step_clearing hnul
      | _ => exact absurd (fun _ _ => by simp) hs
  | parted hnul h =>
    obtain ⟨b, hstep, hcleared⟩ := (SideBySide.parted hnul h).exists_finished
    rw [hstep]
    exact .ended hcleared
  | ended h => exact .ended h

/-- Side by side, the same is to be expected of both. -/
theorem SideBySide.expected_eq {directory : Path} (h : SideBySide directory name s s') :
    expected job s'.1 = expected job s.1 := by
  cases h <;> rfl

theorem SideBySide.remaining_eq {directory : Path} (h : SideBySide directory name s s') :
    s'.1.remaining = s.1.remaining := by
  cases h <;> rfl

theorem SideBySide.run (tool : Tool) (h : SideBySide job.assembler.directory name s s')
    (events : List Event) :
    SideBySide job.assembler.directory name
      (Assembly.run tool { job with cleanup := false } events s)
      (Assembly.run tool { job with cleanup := true } events s') := by
  induction events generalizing s s' with
  | nil => exact h
  | cons event events ih => exact ih h.step

theorem SideBySide.advance (tool : Tool) (h : SideBySide job.assembler.directory name s s')
    (n : Nat) :
    SideBySide job.assembler.directory name
      (Assembly.advance tool { job with cleanup := false } n s)
      (Assembly.advance tool { job with cleanup := true } n s') := by
  induction n generalizing s s' with
  | zero => exact h
  | succ n ih =>
    rw [Assembly.advance, Assembly.advance, h.expected_eq]
    exact ih h.step

theorem sideBySide_whole (tool : Tool) (job : Job) (b : Bench) :
    SideBySide job.assembler.directory b.namer.draw.1 (whole tool { job with cleanup := false } b)
      (whole tool { job with cleanup := true } b) := by
  have hfresh : SideBySide job.assembler.directory b.namer.draw.1 (fresh b) (fresh b) :=
    .together (.opening rfl)
  have hlaunched := hfresh.advance tool stepsToLaunch
  rw [whole, whole, complete, complete, hlaunched.remaining_eq]
  exact hlaunched.advance tool _

/-! ## Ends -/

theorem SideBySide.cleared {directory : Path} (h : SideBySide directory name s s')
    (hend : s'.1 = .finished s'.1.result) :
    s'.1.result = s.1.result ∧ Cleared (.under directory name) s.2 s'.2 := by
  cases h with
  | together => exact ⟨rfl, .refl _ _⟩
  | parted => cases hend
  | ended h => exact ⟨rfl, h⟩

theorem assemble_cleared (tool : Tool) (job : Job) (b : Bench) :
    ((assemble tool { job with cleanup := true }).run.run b).1 =
        ((assemble tool { job with cleanup := false }).run.run b).1 ∧
      Cleared (job.nextPair b) ((assemble tool { job with cleanup := false }).run.run b).2
        ((assemble tool { job with cleanup := true }).run.run b).2 := by
  rw [run_assemble, run_assemble]
  dsimp only
  exact (sideBySide_whole tool job b).cleared (whole_finished tool { job with cleanup := true } b)

/-- An assembly draws one name, or none if it has no directory. -/
theorem exists_drawn (tool : Tool) (job : Job) (b : Bench) :
    ∃ drawn ≤ 1, ((assemble tool job).run.run b).2.namer = b.namer.after drawn := by
  obtain ⟨events, -, hrun⟩ := exists_uncancelled_run tool job b
  rcases hmade : b.files.makeDirectories job.assembler.directory with ⟨t, e | ⟨⟩⟩
  · obtain ⟨event, rest, rfl, hrest⟩ :=
      exists_cons_of_run_finished (s := fresh b) (by simp [fresh]) hrun
    simp only [fresh, step, openDirectory, hmade, run_finished] at hrest
    refine ⟨0, by omega, ?_⟩
    rw [← (Prod.mk.inj hrest).2]
    rfl
  · exact ⟨1, by omega, namer_of_created hmade hrun⟩

end

/-- **Clearing up keeps the outcome.** A whole assembly that clears up and one that keeps its files
have the same result, draw the same number of names, and leave benches that differ only in what was
told and in files at the two paths, which only the second one has. This is so for all files, tools
and texts. It is also so under any name at all, whatever happens while the tool runs: once the
assembly that keeps its files has ended, the other one ends in the same way with one step more. -/
theorem cleanup_keeps_outcome (tool : Tool) (job : Job) (b : Bench) :
    let kept := (assemble tool { job with cleanup := false }).run.run b
    let cleared := (assemble tool { job with cleanup := true }).run.run b
    cleared.1 = kept.1 ∧
      (∃ drawn ≤ 1, kept.2.namer = b.namer.after drawn ∧ cleared.2.namer = b.namer.after drawn) ∧
      Cleared (job.nextPair b) kept.2 cleared.2 ∧
      ∀ name events result kept',
        run tool { job with cleanup := false } events
            (.writing (.under job.assembler.directory name), b) = (.finished result, kept') →
          ∀ event, ∃ cleared',
            run tool { job with cleanup := true } (events ++ [event])
                (.writing (.under job.assembler.directory name), b) = (.finished result, cleared') ∧
              Cleared (.under job.assembler.directory name) kept' cleared' := by
  intro kept cleared
  obtain ⟨hresult, hcleared⟩ := assemble_cleared tool job b
  obtain ⟨drawn, hdrawn, hnamer⟩ := exists_drawn tool { job with cleanup := false } b
  refine ⟨hresult, ⟨drawn, hdrawn, hnamer, hcleared.namer_eq.trans hnamer⟩, hcleared, ?_⟩
  intro name events result kept' hrun event
  have hstart : SideBySide job.assembler.directory name
      (.writing (.under job.assembler.directory name), b)
      (.writing (.under job.assembler.directory name), b) := .together .writing
  have hend := hstart.run tool events
  rw [hrun] at hend
  rw [run_append]
  exact hend.exists_finished

end Assembly

end StackLang
