import Mathlib.Data.Fintype.Card
import StackLang.Proofs.CopyingTool
import StackLang.Proofs.Footprint
import StackLang.Proofs.StagedPaths
import StackLang.Tool.Scripted

/-!
# Assemblies at the same time

Assemblies that share a bench take their steps in any order. With one counter for all of them, no
two work on the same files, so that each one finds its files as it left them, whatever the others
have done in the meantime.

What one assembly does is told by its own turns and its own two files alone: after so many turns it
has reached that phase, and the files hold this. A turn of another assembly changes neither. What
all of them have in common is the order in which they drew their names, since the place in this
order is the number in the name. The order only ever grows, so that a name keeps its owner.

## Main definitions

* `Tool.Copies` — tools that copy when they are called with a command
* `Assembly.Crew` — assemblies that share a bench, and their turns
* `Assembly.Progress` — how far an assembly comes with its turns, and what its files hold then
* `Assembly.Explains` — what a crew has done, by the order in which names were drawn

## Main results

* `Assembly.Progress.step` — one turn of an assembly
* `Assembly.Explains.run` — any turns of all of them
* `Assembly.assemblies_never_mix` — each gets its own result, and nothing is left in the end
-/

namespace StackLang

/-! ## Tools that copy -/

namespace Tool

/-- Called with the command, the tool reads its input and writes it to its output, and ends well.
An output that is a directory may be refused. -/
def Copies (tool : Tool) (command : List String) : Prop :=
  ∀ input output t, t.isDirectory (.ofString output) = false → ∃ memory stderr,
    tool (command ++ [input, "-o", output]) t =
      .started ⟨memory, copyActs (command ++ [input, "-o", output]), stderr, .exited 0⟩

theorem copies_scripted {name : String} (h : name.toList.contains '/' = false) :
    (scripted name).Copies [name, "copy"] := by
  intro input output t hout
  have hrefusal : refusal? name name t = none := by
    rw [refusal?, h, if_neg Bool.false_ne_true, if_pos rfl]
  refine ⟨[], [], ?_⟩
  have houtput : outputOf ([name, "copy"] ++ [input, "-o", output]) = .ofString output := rfl
  simp only [scripted, houtput, hout]
  rw [show ([name, "copy"] ++ [input, "-o", output]).headD "" = name from rfl, hrefusal]
  rfl

end Tool

namespace Assembly

open FileTree (AgreeOff Grown SameLayout hasNul)

/-! ## One of many -/

/-- The files of the pair are at two places, where they can be written and removed. -/
structure Placed (files : FileTree) (pair : Pair) (place : Role → Location) : Prop where
  located : ∀ r, files.locate (pair.file r) = .ok (place r)
  takes : ∀ r, files.takesFile (place r) = true
  distinct : place .source ≠ place .output
  proper : ∀ r, (pair.file r).Proper

/-- The bench has changed in the files at two places, and neither in its directories nor in its
namer. -/
structure Tended (place : Role → Location) (b b' : Bench) : Prop where
  namer : b'.namer = b.namer
  agree : AgreeOff (fun loc => ∃ r, loc = place r) b.files b'.files
  same : SameLayout b.files b'.files

namespace Tended

variable {place : Role → Location} {b : Bench} {r : Role}

theorem of_files {b' : Bench} (hfiles : b'.files = b.files) (hnamer : b'.namer = b.namer) :
    Tended place b b' :=
  ⟨hnamer, hfiles ▸ .refl _ _, hfiles ▸ .refl _⟩

theorem set (h : b.files.Free (place r)) (bytes : Bytes) :
    Tended place b { b with files := b.files.set (place r) (.file bytes) } :=
  ⟨rfl, (AgreeOff.set h.ne_nil b.files _).mono fun _ heq => ⟨r, heq⟩, .set h bytes⟩

theorem erase (h : b.files.Free (place r)) :
    Tended place b { b with files := b.files.erase (place r) } :=
  ⟨rfl, (AgreeOff.erase h.ne_nil b.files).mono fun _ heq => ⟨r, heq⟩, .erase h⟩

end Tended

/-- The file that an assembly makes of its text. -/
def Job.node (job : Job) : FileNode := .file (contents job.text)

/-- The result of an assembly whose tool copies: the bytes of its text, if it has any. -/
def Job.copied (job : Job) : Except Fault Bytes := job.text.encode.mapError .unencodable

theorem Job.copied_of_encode {job : Job} {bytes : Bytes} (h : job.text.encode = .ok bytes) :
    job.copied = .ok (contents job.text) := by
  rw [copied, h, contents_of_encode h]
  rfl

/-- How far an assembly with a copying tool has come with so many turns since it began, the first
two of which lead to its files, and what it finds in the two files. -/
inductive Progress (job : Job) (pair : Pair) (nodes : Role → Option FileNode) : Nat → Phase → Prop
  | writing (hsource : nodes .source = none) (houtput : nodes .output = none) :
    Progress job pair nodes 2 (.writing pair)
  | launching (hcopied : job.copied = .ok (contents job.text))
    (hsource : nodes .source = some job.node) (houtput : nodes .output = none) :
    Progress job pair nodes 3 (.launching pair)
  | started {number memory stderr} (hcopied : job.copied = .ok (contents job.text))
    (hsource : nodes .source = some job.node) (houtput : nodes .output = none) :
    Progress job pair nodes 4 (.waiting pair number
      ⟨memory, [.reading pair.source, .writing pair.output], stderr, .exited 0⟩)
  | recalled {number stderr} (hcopied : job.copied = .ok (contents job.text))
    (hsource : nodes .source = some job.node) (houtput : nodes .output = none) :
    Progress job pair nodes 5 (.waiting pair number
      ⟨contents job.text, [.writing pair.output], stderr, .exited 0⟩)
  | transcribed {number stderr} (hcopied : job.copied = .ok (contents job.text))
    (hsource : nodes .source = some job.node) (houtput : nodes .output = some job.node) :
    Progress job pair nodes 6 (.waiting pair number ⟨contents job.text, [], stderr, .exited 0⟩)
  | reading (hcopied : job.copied = .ok (contents job.text))
    (hsource : nodes .source = some job.node) (houtput : nodes .output = some job.node) :
    Progress job pair nodes 7 (.reading pair)
  -- a text without bytes leads here without an output
  | clearing {turns} (hturns : turns ≤ 8) (hsource : nodes .source = some job.node)
    (houtput : nodes .output = none ∨ nodes .output = some job.node) :
    Progress job pair nodes turns (.clearing pair job.copied)
  | clearingOutput {turns} (hturns : turns ≤ 9) (hcleanup : job.cleanup = true)
    (hsource : nodes .source = none)
    (houtput : nodes .output = none ∨ nodes .output = some job.node) :
    Progress job pair nodes turns (.clearingOutput pair job.copied)
  | cleared {turns} (hsource : nodes .source = none) (houtput : nodes .output = none) :
    Progress job pair nodes turns (.finished job.copied)
  | kept {turns} (hcleanup : job.cleanup = false) :
    Progress job pair nodes turns (.finished job.copied)

/-- The pair of files that an assembly works with in a phase. -/
def Phase.pair? : Phase → Option Pair
  | .opening => none
  | .naming => none
  | .writing pair => some pair
  | .launching pair => some pair
  | .waiting pair _ _ => some pair
  | .killing pair _ _ => some pair
  | .reading pair => some pair
  | .clearing pair _ => some pair
  | .clearingOutput pair _ => some pair
  | .finished _ => none

namespace Progress

variable {job : Job} {pair : Pair} {nodes : Role → Option FileNode} {turns : Nat} {phase : Phase}

theorem pair_eq (h : Progress job pair nodes turns phase) {pair' : Pair}
    (hpair : phase.pair? = some pair') : pair' = pair := by
  cases h with
  | cleared | kept => cases hpair
  | _ => exact (Option.some.inj hpair).symm

theorem result_eq (h : Progress job pair nodes turns phase) {result : Except Fault Bytes}
    (hphase : phase = .finished result) : result = job.copied := by
  cases h with
  | cleared | kept => exact (Phase.finished.inj hphase).symm
  | _ => cases hphase

theorem finished_of_turns (h : Progress job pair nodes turns phase) (hturns : 10 ≤ turns) :
    phase = .finished job.copied := by
  cases h with
  | cleared | kept => rfl
  | clearing | clearingOutput => omega
  | _ => exact absurd hturns (by decide)

/-- A finished assembly that clears up has left nothing. -/
theorem nodes_eq_none (h : Progress job pair nodes turns phase) (hcleanup : job.cleanup = true)
    {result : Except Fault Bytes} (hphase : phase = .finished result) (r : Role) :
    nodes r = none := by
  cases h with
  | cleared hsource houtput =>
    cases r with
    | source => exact hsource
    | output => exact houtput
  | kept hoff => cases hoff.symm.trans hcleanup
  | _ => cases hphase

end Progress

section

variable {tool : Tool} {job : Job} {pair : Pair} {place : Role → Location} {b : Bench}

/-- A copying tool can be started on a text that is there. -/
theorem Placed.exists_started (h : Placed b.files pair place)
    (htool : tool.Copies job.assembler.command)
    (hfree : b.files.get? (place .output) = none) : ∃ memory stderr,
      tool (job.argv pair) b.files =
        .started ⟨memory, [.reading pair.source, .writing pair.output], stderr, .exited 0⟩ := by
  have hdir : b.files.isDirectory (.ofString pair.output.text) = false := by
    have houtput : b.files.locate pair.output = .ok (place .output) := h.located .output
    have hproper : pair.output.Proper := h.proper .output
    have hreach := FileTree.reach_of_locate houtput (FileTree.free_of_none hfree).link?
    rw [Path.ofString_text hproper, FileTree.isDirectory, hreach]
    simp [hfree]
  have hacts : Tool.copyActs (job.argv pair) = [.reading pair.source, .writing pair.output] :=
    copyActs_argv (h.proper .source) (h.proper .output)
  obtain ⟨memory, stderr, hstarted⟩ := htool pair.source.text pair.output.text b.files hdir
  exact ⟨memory, stderr, hacts ▸ hstarted⟩

/-- **One turn of an assembly.** It comes one turn further and changes nothing but its files. -/
theorem Progress.step {turns : Nat} {phase : Phase}
    (h : Progress job pair (fun r => b.files.get? (place r)) turns phase)
    (hplaced : Placed b.files pair place) (htool : tool.Copies job.assembler.command)
    (hcommand : job.assembler.command.any hasNul = false) :
    Progress job pair
        (fun r => (Assembly.step tool job .proceeds (phase, b)).2.files.get? (place r)) (turns + 1)
        (Assembly.step tool job .proceeds (phase, b)).1 ∧
      Tended place b (Assembly.step tool job .proceeds (phase, b)).2 := by
  have hsourceAt : b.files.locate pair.source = .ok (place .source) := hplaced.located .source
  have houtputAt : b.files.locate pair.output = .ok (place .output) := hplaced.located .output
  have hfree : ∀ r, b.files.Free (place r) :=
    fun r => FileTree.free_of_takesFile (hplaced.takes r)
  have hne : ∀ r, place r ≠ [] := fun r => (hfree r).ne_nil
  have hopen : ∀ r, b.files.isSealed (place r).dropLast = false :=
    fun r => FileTree.isSealed_of_takesFile (hplaced.takes r)
  cases h with
  | writing hsource houtput =>
    have hwrite := FileTree.write_of_locate hsourceAt (hplaced.takes .source) (contents job.text)
    have hsource' : (b.files.set (place .source) job.node).get? (place .source) =
        some job.node := by
      rw [FileTree.get?_set _ (hne _), if_pos rfl]
    have houtput' : (b.files.set (place .source) job.node).get? (place .output) = none := by
      rw [FileTree.get?_set _ (hne _), if_neg hplaced.distinct.symm, houtput]
    cases htext : job.text.encode with
    | ok bytes =>
      simp only [Assembly.step, writeText, hwrite, htext]
      exact ⟨.launching (Job.copied_of_encode htext) hsource' houtput', .set (hfree .source) _⟩
    | error flaw =>
      have hcopied : job.copied = .error (.unencodable flaw) := by
        rw [Job.copied, htext]
        rfl
      simp only [Assembly.step, writeText, hwrite, htext, ← hcopied]
      exact ⟨.clearing (by decide) hsource' (.inl houtput'), .set (hfree .source) _⟩
  | launching hcopied hsource houtput =>
    obtain ⟨memory, stderr, hstarted⟩ := hplaced.exists_started htool houtput
    have hlaunch : Assembly.step tool job .proceeds (.launching pair, b) =
        launch tool job pair b := rfl
    simp only [hlaunch, launch, hasNul_argv hsourceAt houtputAt hcommand, hstarted]
    exact ⟨.started hcopied hsource houtput, .of_files rfl rfl⟩
  | started hcopied hsource houtput =>
    have hread := FileTree.read_of_locate hsourceAt hsource
    simp only [Assembly.step, proceed, Process.act, Act.reading, hread]
    exact ⟨.recalled hcopied hsource houtput, .of_files rfl rfl⟩
  | recalled hcopied hsource houtput =>
    have hwrite := FileTree.write_of_locate houtputAt (hplaced.takes .output) (contents job.text)
    simp only [Assembly.step, proceed, Process.act, Act.writing, hwrite]
    refine ⟨.transcribed hcopied ?_ ?_, .set (hfree .output) _⟩
    · rw [FileTree.get?_set _ (hne _), if_neg hplaced.distinct, hsource]
    · rw [FileTree.get?_set _ (hne _), if_pos rfl, Job.node]
  | transcribed hcopied hsource houtput =>
    exact ⟨.reading hcopied hsource houtput, .of_files rfl rfl⟩
  | reading hcopied hsource houtput =>
    have hread := FileTree.read_of_locate houtputAt houtput
    simp only [Assembly.step, readBytes, hread, ← hcopied]
    exact ⟨.clearing (Nat.le_refl 8) hsource (.inr houtput), .of_files rfl rfl⟩
  | clearing hturns hsource houtput =>
    cases hcleanup : job.cleanup with
    | false =>
      simp only [Assembly.step, hcleanup]
      exact ⟨.kept hcleanup, .of_files rfl rfl⟩
    | true =>
      have hremove := FileTree.remove_of_locate hsourceAt hsource (hopen .source)
      simp only [Assembly.step, hcleanup, removeStaged, hremove, if_true]
      refine ⟨.clearingOutput (Nat.succ_le_succ hturns) hcleanup ?_ ?_, .erase (hfree .source)⟩
      · rw [FileTree.get?_erase _ (hne _), if_pos rfl]
      · rw [FileTree.get?_erase _ (hne _), if_neg hplaced.distinct.symm]
        exact houtput
  | clearingOutput hturns hcleanup hsource houtput =>
    rcases houtput with houtput | houtput
    · have hremove := FileTree.remove_of_get?_eq_none houtputAt houtput
      simp only [Assembly.step, removeStaged, hremove, if_true]
      exact ⟨.cleared hsource houtput, .of_files rfl rfl⟩
    · have hremove := FileTree.remove_of_locate houtputAt houtput (hopen .output)
      simp only [Assembly.step, removeStaged, hremove]
      refine ⟨.cleared ?_ ?_, .erase (hfree .output)⟩
      · rw [FileTree.get?_erase _ (hne _), if_neg hplaced.distinct, hsource]
      · rw [FileTree.get?_erase _ (hne _), if_pos rfl]
  | cleared hsource houtput => exact ⟨.cleared hsource houtput, .of_files rfl rfl⟩
  | kept hcleanup => exact ⟨.kept hcleanup, .of_files rfl rfl⟩

end

/-! ## All of them -/

/-- Assemblies that share a bench: the phase that each of them has reached, and the bench. -/
structure Crew (n : Nat) where
  phases : Fin n → Phase
  bench : Bench

namespace Crew

variable {n : Nat}

/-- All assemblies are about to begin. -/
def start (n : Nat) (b : Bench) : Crew n :=
  ⟨fun _ => .opening, { b with assemblies := b.assemblies + n }⟩

/-- One step of the assembly `i`. If its tool runs, it goes on. -/
def turn (tool : Tool) (jobs : Fin n → Job) (c : Crew n) (i : Fin n) : Crew n :=
  let s := step tool (jobs i) .proceeds (c.phases i, c.bench)
  ⟨Function.update c.phases i s.1, s.2⟩

/-- The steps of a schedule. -/
def run (tool : Tool) (jobs : Fin n → Job) (schedule : List (Fin n)) (c : Crew n) : Crew n :=
  schedule.foldl (turn tool jobs) c

variable {tool : Tool} {jobs : Fin n → Job}

theorem run_append (before after : List (Fin n)) (c : Crew n) :
    run tool jobs (before ++ after) c = run tool jobs after (run tool jobs before c) :=
  List.foldl_append

theorem turn_eq {c : Crew n} {i : Fin n} {phase : Phase} {b : Bench}
    (h : step tool (jobs i) .proceeds (c.phases i, c.bench) = (phase, b)) :
    turn tool jobs c i = ⟨Function.update c.phases i phase, b⟩ := by
  rw [turn, h]

end Crew

/-- The files of the pair can be found, nothing is there, and files can be made there and removed
again. -/
def Vacant (t : FileTree) (pair : Pair) : Prop :=
  ∀ r, ∃ loc, t.locate (pair.file r) = .ok loc ∧ t.get? loc = none ∧ t.takesFile loc = true

/-- What assemblies have in common: the assembler, the names that are drawn, and the files as they
are once the directory is there. -/
structure Workshop where
  assembler : Assembler
  stem : String
  first : Int
  files : FileTree

namespace Workshop

/-- The files under the name that is drawn as the `k`-th one. -/
def pair (w : Workshop) (k : Nat) : Pair := numbered w.assembler.directory w.stem (w.first + k)

/-- The place of such a file, if it can be found. -/
def place (w : Workshop) (k : Nat) (r : Role) : Location :=
  match w.files.locate ((w.pair k).file r) with
  | .ok loc => loc
  | .error _ => []

/-- The workshop serves `n` assemblies: the tool copies, the directory is found, and nothing is
there yet under the first `n` names. -/
structure Ready (w : Workshop) (n : Nat) (tool : Tool) : Prop where
  copies : tool.Copies w.assembler.command
  command : w.assembler.command.any hasNul = false
  proper : w.assembler.directory.Proper
  found : ∀ files, SameLayout w.files files →
    files.makeDirectories w.assembler.directory = (files, .ok ())
  vacant : ∀ k < n, Vacant w.files (w.pair k)

namespace Ready

variable {w : Workshop} {n : Nat} {tool : Tool} {k k' : Nat} {r r' : Role}

theorem located (h : w.Ready n tool) (hk : k < n) (r : Role) :
    w.files.locate ((w.pair k).file r) = .ok (w.place k r) ∧
      w.files.get? (w.place k r) = none ∧ w.files.takesFile (w.place k r) = true := by
  obtain ⟨loc, hloc, hvacant⟩ := h.vacant k hk r
  have hplace : w.place k r = loc := by
    rw [place, hloc]
  rw [hplace]
  exact ⟨hloc, hvacant⟩

/-- Different files are at different places. -/
theorem place_inj (h : w.Ready n tool) (hk : k < n) (hk' : k' < n)
    (heq : w.place k r = w.place k' r') : k = k' ∧ r = r' := by
  have hpath : (w.pair k).file r = (w.pair k').file r' := by
    by_contra hne
    exact FileTree.location_ne_of_beside (file_numbered_beside _ _ _ _ r r') hne
      (h.located hk r).1 (h.located hk' r').1 heq
  obtain ⟨hnumber, hrole⟩ := file_numbered_inj hpath
  exact ⟨by omega, hrole⟩

theorem placed (h : w.Ready n tool) (hk : k < n) {files : FileTree}
    (hsame : SameLayout w.files files) : Placed files (w.pair k) (w.place k) where
  located r := hsame.locate (h.located hk r).1
  takes r := hsame.takesFile (h.located hk r).2.2
  distinct heq := by cases (h.place_inj hk hk heq).2
  proper := file_under_proper h.proper _

end Ready

end Workshop

/-- What assemblies have done with so many turns each, by the order in which they drew their names.
Nothing has changed but the files of those who have a name. -/
structure Explains {n : Nat} (w : Workshop) (jobs : Fin n → Job) (order : List (Fin n))
    (turns : Fin n → Nat) (c : Crew n) : Prop where
  nodup : order.Nodup
  namer : c.bench.namer = .counter w.stem (w.first + order.length)
  same : SameLayout w.files c.bench.files
  bodies : c.bench.files.bodies = w.files.bodies
  undrawn : ∀ i, i ∉ order →
    turns i = 0 ∧ c.phases i = .opening ∨ turns i = 1 ∧ c.phases i = .naming
  drawn : ∀ k i, order[k]? = some i →
    Progress (jobs i) (w.pair k) (fun r => c.bench.files.get? (w.place k r)) (turns i) (c.phases i)
  rest : ∀ loc, (∀ k < order.length, ∀ r, loc ≠ w.place k r) →
    c.bench.files.get? loc = w.files.get? loc

namespace Explains

variable {n : Nat} {w : Workshop} {jobs : Fin n → Job} {order : List (Fin n)}
  {turns : Fin n → Nat} {c : Crew n} {tool : Tool} {i : Fin n}

theorem length_le (h : Explains w jobs order turns c) : order.length ≤ n := by
  simpa using h.nodup.length_le_card

theorem lt_of_getElem? (h : Explains w jobs order turns c) {k : Nat} (hk : order[k]? = some i) :
    k < n :=
  have hlt : k < order.length := (List.getElem?_eq_some_iff.mp hk).1
  Nat.lt_of_lt_of_le hlt h.length_le

/-- An assembly has no name yet, or comes further with the one that it drew. -/
theorem status (h : Explains w jobs order turns c) (i : Fin n) :
    (turns i = 0 ∧ c.phases i = .opening ∨ turns i = 1 ∧ c.phases i = .naming) ∨
      ∃ k, order[k]? = some i ∧ Progress (jobs i) (w.pair k)
        (fun r => c.bench.files.get? (w.place k r)) (turns i) (c.phases i) := by
  by_cases hi : i ∈ order
  · obtain ⟨k, hk⟩ := List.getElem?_of_mem hi
    exact .inr ⟨k, hk, h.drawn k i hk⟩
  · exact .inl (h.undrawn i hi)

/-- The pair that an assembly works with is the one under the name that it drew. -/
theorem exists_pair_eq (h : Explains w jobs order turns c) {pair : Pair}
    (hpair : (c.phases i).pair? = some pair) : ∃ k, order[k]? = some i ∧ pair = w.pair k := by
  rcases h.status i with (⟨-, hphase⟩ | ⟨-, hphase⟩) | ⟨k, hk, hprogress⟩
  · cases (congrArg Phase.pair? hphase).symm.trans hpair
  · cases (congrArg Phase.pair? hphase).symm.trans hpair
  · exact ⟨k, hk, hprogress.pair_eq hpair⟩

theorem result_eq (h : Explains w jobs order turns c) {result : Except Fault Bytes}
    (hphase : c.phases i = .finished result) : result = (jobs i).copied := by
  rcases h.status i with (⟨-, hother⟩ | ⟨-, hother⟩) | ⟨k, -, hprogress⟩
  · cases hphase.symm.trans hother
  · cases hphase.symm.trans hother
  · exact hprogress.result_eq hphase

theorem finished_of_turns (h : Explains w jobs order turns c) (hturns : 10 ≤ turns i) :
    c.phases i = .finished (jobs i).copied := by
  rcases h.status i with (⟨hfew, -⟩ | ⟨hfew, -⟩) | ⟨k, -, hprogress⟩
  · omega
  · omega
  · exact hprogress.finished_of_turns hturns

section

variable (hready : w.Ready n tool) (hjobs : ∀ i, (jobs i).assembler = w.assembler)
include hready

/-- When all have finished and cleared up, everything is as before. -/
theorem get?_eq_of_finished (h : Explains w jobs order turns c)
    (hall : ∀ i, (jobs i).cleanup = true ∧ ∃ result, c.phases i = .finished result)
    (loc : Location) : c.bench.files.get? loc = w.files.get? loc := by
  by_cases hloc : ∃ k r, k < order.length ∧ loc = w.place k r
  · obtain ⟨k, r, hk, rfl⟩ := hloc
    have hdrawn : order[k]? = some order[k] := List.getElem?_eq_getElem hk
    obtain ⟨hcleanup, result, hphase⟩ := hall order[k]
    rw [(hready.located (h.lt_of_getElem? hdrawn) r).2.1]
    exact (h.drawn k _ hdrawn).nodes_eq_none hcleanup hphase r
  · exact h.rest loc fun k hk r heq => hloc ⟨k, r, hk, heq⟩

/-- Nothing is there yet under a name that has not been drawn: its place is none of those that the
others have. -/
theorem get?_place_eq_none (h : Explains w jobs order turns c) {k : Nat} (hk : order.length ≤ k)
    (hkn : k < n) (r : Role) : c.bench.files.get? (w.place k r) = none := by
  rw [h.rest, (hready.located hkn r).2.1]
  intro k' hk' r' heq
  have hkn' : k' < n := Nat.lt_of_lt_of_le hk' h.length_le
  exact absurd (hready.place_inj hkn hkn' heq).1 (Nat.ne_of_gt (Nat.lt_of_lt_of_le hk' hk))

include hjobs

/-- An assembly makes the directory, which is there. -/
theorem turn_opening (h : Explains w jobs order turns c) (hi : i ∉ order) (hturns : turns i = 0)
    (hphase : c.phases i = .opening) :
    Explains w jobs order (Function.update turns i (turns i + 1)) (c.turn tool jobs i) := by
  have hstep : step tool (jobs i) .proceeds (c.phases i, c.bench) = (.naming, c.bench) := by
    rw [hphase]
    simp only [step, openDirectory, hjobs, hready.found _ h.same]
  rw [Crew.turn_eq hstep, hturns]
  refine { h with undrawn := fun j hj => ?_, drawn := fun k j hkj => ?_ }
  · by_cases hji : j = i
    · subst hji
      simp
    · simpa [hji] using h.undrawn j hj
  · have hji : j ≠ i := fun heq => hi (heq ▸ List.mem_of_getElem? hkj)
    simpa [hji] using h.drawn k j hkj

/-- An assembly draws a name, and finds nothing there. -/
theorem turn_naming (h : Explains w jobs order turns c) (hi : i ∉ order) (hturns : turns i = 1)
    (hphase : c.phases i = .naming) :
    Explains w jobs (order ++ [i]) (Function.update turns i (turns i + 1))
      (c.turn tool jobs i) := by
  have hstep : step tool (jobs i) .proceeds (c.phases i, c.bench) =
      (.writing (w.pair order.length),
        { c.bench with namer := .counter w.stem (w.first + order.length + 1) }) := by
    rw [hphase]
    simp only [step, drawPair, hjobs, h.namer, Namer.draw]
    rfl
  have hnodup : (order ++ [i]).Nodup := by
    rw [← List.concat_eq_append, List.nodup_concat]
    exact ⟨hi, h.nodup⟩
  have hlength : order.length < n := by
    simpa [Nat.succ_le_iff] using hnodup.length_le_card
  have hfree := h.get?_place_eq_none hready (Nat.le_refl order.length) hlength
  rw [Crew.turn_eq hstep, hturns]
  refine ⟨hnodup, ?_, h.same, h.bodies, fun j hj => ?_, fun k j hkj => ?_,
    fun loc hloc => h.rest loc ?_⟩
  · rw [List.length_append, List.length_singleton]
    push_cast
    rw [Int.add_assoc]
  · obtain ⟨hj, hji⟩ := not_or.mp (mt List.mem_append.mpr hj)
    have hne : j ≠ i := mt List.mem_singleton.mpr hji
    simpa [hne] using h.undrawn j hj
  · rcases Nat.lt_or_ge k order.length with hk | hk
    · rw [List.getElem?_append_left hk] at hkj
      have hne : j ≠ i := fun heq => hi (heq ▸ List.mem_of_getElem? hkj)
      simpa [hne] using h.drawn k j hkj
    · rw [List.getElem?_append_right hk, List.getElem?_singleton] at hkj
      split at hkj
      · next hzero =>
        obtain rfl := Option.some.inj hkj
        obtain rfl : k = order.length := by omega
        simpa using .writing (hfree .source) (hfree .output)
      · cases hkj
  · intro k hk r
    exact hloc k (by simp; omega) r

/-- An assembly that has a name comes further. The files of the others are at other places. -/
theorem turn_drawn (h : Explains w jobs order turns c) {k : Nat} (hk : order[k]? = some i) :
    Explains w jobs order (Function.update turns i (turns i + 1)) (c.turn tool jobs i) := by
  have hkn := h.lt_of_getElem? hk
  obtain ⟨hprogress, htended⟩ := (h.drawn k i hk).step (hready.placed hkn h.same)
    (hjobs i ▸ hready.copies) (hjobs i ▸ hready.command)
  refine ⟨h.nodup, htended.namer.trans h.namer, h.same.trans htended.same,
    htended.agree.bodies.trans h.bodies, fun j hj => ?_, fun k' j hkj => ?_, fun loc hloc => ?_⟩
  · have hji : j ≠ i := fun heq => hj (heq ▸ List.mem_of_getElem? hk)
    simpa [Crew.turn, hji] using h.undrawn j hj
  · by_cases hji : j = i
    · subst hji
      obtain rfl : k = k' := by
        have hlt := (List.getElem?_eq_some_iff.mp hk).1
        exact (List.getElem?_inj hlt h.nodup).mp (hk.trans hkj.symm)
      simpa [Crew.turn] using hprogress
    · have hkk : k' ≠ k := by
        rintro rfl
        exact hji (Option.some.inj (hkj.symm.trans hk))
      have hnodes : ∀ r, (c.turn tool jobs i).bench.files.get? (w.place k' r) =
          c.bench.files.get? (w.place k' r) := by
        intro r
        refine htended.agree.get? _ ?_
        rintro ⟨r', heq⟩
        exact hkk (hready.place_inj (h.lt_of_getElem? hkj) hkn heq).1
      simp only [hnodes]
      simpa [Crew.turn, hji] using h.drawn k' j hkj
  · have hlt := (List.getElem?_eq_some_iff.mp hk).1
    have hother : ¬ ∃ r, loc = w.place k r := fun ⟨r, heq⟩ => hloc k hlt r heq
    exact (htended.agree.get? loc hother).trans (h.rest loc hloc)

/-- One turn. The order stays the same, or grows by the assembly that draws a name. -/
theorem turn (h : Explains w jobs order turns c) (i : Fin n) :
    ∃ order', order <+: order' ∧
      Explains w jobs order' (Function.update turns i (turns i + 1)) (c.turn tool jobs i) := by
  by_cases hi : i ∈ order
  · obtain ⟨k, hk⟩ := List.getElem?_of_mem hi
    exact ⟨order, List.prefix_rfl, h.turn_drawn hready hjobs hk⟩
  · rcases h.undrawn i hi with ⟨hturns, hphase⟩ | ⟨hturns, hphase⟩
    · exact ⟨order, List.prefix_rfl, h.turn_opening hready hjobs hi hturns hphase⟩
    · exact ⟨order ++ [i], List.prefix_append _ _, h.turn_naming hready hjobs hi hturns hphase⟩

/-- **Any turns of all of them.** -/
theorem run (h : Explains w jobs order turns c) (schedule : List (Fin n)) :
    ∃ order', order <+: order' ∧
      Explains w jobs order' (fun i => turns i + schedule.count i) (c.run tool jobs schedule) := by
  induction schedule generalizing order turns c with
  | nil => exact ⟨order, List.prefix_rfl, h⟩
  | cons i schedule ih =>
    obtain ⟨middle, hmiddle, hturn⟩ := h.turn hready hjobs i
    obtain ⟨order', horder, hrun⟩ := ih hturn
    refine ⟨order', hmiddle.trans horder, ?_⟩
    have hcount : (fun j => turns j + (i :: schedule).count j) =
        fun j => Function.update turns i (turns i + 1) j + schedule.count j := by
      funext j
      by_cases hji : j = i
      · subst hji
        simp
        omega
      · simp [hji, Ne.symm hji]
    rw [hcount]
    exact hrun

end

end Explains

section

variable {n : Nat} {tool : Tool} {jobs : Fin n → Job} {w : Workshop} {b : Bench}
  (hready : w.Ready n tool) (hjobs : ∀ i, (jobs i).assembler = w.assembler)
  (hnamer : b.namer = .counter w.stem w.first)
  (hmade : b.files.makeDirectories w.assembler.directory = (w.files, .ok ()))
include hjobs hnamer hmade

/-- The first turn of all makes the directory. -/
theorem explains_first (tool : Tool) (i : Fin n) :
    Explains w jobs [] (fun j => [i].count j) ((Crew.start n b).turn tool jobs i) := by
  have hstep : step tool (jobs i) .proceeds ((Crew.start n b).phases i, (Crew.start n b).bench) =
      (.naming, { (Crew.start n b).bench with files := w.files }) := by
    simp only [Crew.start, step, openDirectory, hjobs, hmade]
  rw [Crew.turn_eq hstep]
  refine ⟨List.nodup_nil, ?_, .refl _, rfl, fun j _ => ?_, by simp, fun _ _ => rfl⟩
  · simpa [Crew.start] using hnamer
  · by_cases hji : j = i
    · subst hji
      simp
    · simp [hji, Ne.symm hji, Crew.start]

include hready

theorem exists_explains {schedule : List (Fin n)} (hne : schedule ≠ []) :
    ∃ order, Explains w jobs order (fun i => schedule.count i)
      ((Crew.start n b).run tool jobs schedule) := by
  cases schedule with
  | nil => exact absurd rfl hne
  | cons i schedule =>
    have hfirst := explains_first hjobs hnamer hmade tool i
    obtain ⟨order, -, hrun⟩ := hfirst.run hready hjobs schedule
    simp only [← List.count_append, List.singleton_append] at hrun
    exact ⟨order, hrun⟩

/-- Files that are staged at two times belong to the same assembly if they are the same. -/
theorem staged_inj {early late : List (Fin n)} (hearlier : early <+: late) {i j : Fin n}
    {pair pair' : Pair} {r r' : Role}
    (hpair : (((Crew.start n b).run tool jobs early).phases i).pair? = some pair)
    (hpair' : (((Crew.start n b).run tool jobs late).phases j).pair? = some pair')
    (hfile : pair.file r = pair'.file r') : i = j ∧ r = r' := by
  have hne : early ≠ [] := by
    rintro rfl
    cases hpair
  -- the later order begins with the earlier one, so the number still belongs to `i`
  obtain ⟨more, rfl⟩ := hearlier
  obtain ⟨order, hearly⟩ := exists_explains hready hjobs hnamer hmade hne
  obtain ⟨_, ⟨grown, rfl⟩, hlate⟩ := hearly.run hready hjobs more
  rw [Crew.run_append] at hpair'
  obtain ⟨k, hk, rfl⟩ := hearly.exists_pair_eq hpair
  obtain ⟨k', hk', rfl⟩ := hlate.exists_pair_eq hpair'
  obtain ⟨hnumber, hrole⟩ := file_numbered_inj hfile
  obtain rfl : k = k' := by omega
  rw [List.getElem?_append_left (List.getElem?_eq_some_iff.mp hk).1, hk] at hk'
  exact ⟨Option.some.inj hk', hrole⟩

end

/-- The assembly works with the pair at some time of the schedule. -/
def Crew.Stages {n : Nat} (tool : Tool) (jobs : Fin n → Job) (schedule : List (Fin n)) (c : Crew n)
    (i : Fin n) (pair : Pair) : Prop :=
  ∃ m, ((c.run tool jobs (schedule.take m)).phases i).pair? = some pair

theorem mem_drawMany_counter {n k : Nat} (hk : k < n) (stem : String) (first : Int) :
    stem ++ "-" ++ Number.int (first + k) ∈ (Namer.counter stem first).drawMany n := by
  induction n generalizing k first with
  | zero => exact absurd hk (Nat.not_lt_zero k)
  | succ n ih =>
    cases k with
    | zero =>
      have hnumber : first + ((0 : Nat) : Int) = first := by omega
      rw [hnumber]
      exact List.mem_cons_self
    | succ k =>
      have hnumber : first + ((k + 1 : Nat) : Int) = first + 1 + k := by omega
      rw [hnumber]
      exact List.mem_cons_of_mem _ (ih (Nat.lt_of_succ_lt_succ hk) (first + 1))

/-- **Assemblies at the same time never mix.** Any number of them, with one assembler whose tool
copies and one counter, take their steps in any order, in a directory that can be used and holds
none of the names that will be drawn. No two of them ever work with the same file. Ten steps bring
each one to its end, and its result is then the bytes of its own text, if it has any. When all have
ended and cleared up, there is nothing that was not there before, except for the directory and those
above it. -/
theorem assemblies_never_mix {n : Nat} {tool : Tool} {jobs : Fin n → Job} {a : Assembler}
    {b : Bench} {t : FileTree} {stem : String} {first : Int}
    (hjobs : ∀ i, (jobs i).assembler = a) (htool : tool.Copies a.command)
    (hcommand : a.command.any hasNul = false) (hproper : a.directory.Proper)
    (hnamer : b.namer = .counter stem first)
    (hmade : b.files.makeDirectories a.directory = (t, .ok ()))
    (hvacant : ∀ name ∈ b.namer.drawMany n, Vacant t (Pair.under a.directory name))
    (schedule : List (Fin n)) :
    let start := Crew.start n b
    let finish := start.run tool jobs schedule
    (∀ i j pair pair' r r', start.Stages tool jobs schedule i pair →
        start.Stages tool jobs schedule j pair' → pair.file r = pair'.file r' → i = j ∧ r = r') ∧
      (∀ i, 10 ≤ schedule.count i → finish.phases i = .finished (jobs i).copied) ∧
      (∀ i result, finish.phases i = .finished result → result = (jobs i).copied) ∧
      ((∀ i, (jobs i).cleanup = true ∧ ∃ result, finish.phases i = .finished result) →
        Grown a.directory b.files finish.bench.files) := by
  intro start finish
  let w : Workshop := ⟨a, stem, first, t⟩
  have hready : w.Ready n tool :=
    { copies := htool
      command := hcommand
      proper := hproper
      found := fun files hsame => FileTree.makeDirectories_again hmade hsame
      vacant := fun k hk => hvacant _ (hnamer ▸ mem_drawMany_counter hk stem first) }
  refine ⟨?_, ?_⟩
  · rintro i j pair pair' r r' ⟨m, hpair⟩ ⟨m', hpair'⟩ hfile
    rcases Nat.le_total m m' with hle | hle
    · exact staged_inj hready hjobs hnamer hmade (List.take_prefix_take_left hle) hpair hpair' hfile
    · obtain ⟨hcall, hrole⟩ := staged_inj hready hjobs hnamer hmade (List.take_prefix_take_left hle)
        hpair' hpair hfile.symm
      exact ⟨hcall.symm, hrole.symm⟩
  · by_cases hne : schedule = []
    · subst hne
      refine ⟨fun i hi => ?_, fun i result hi => ?_, fun _ => Grown.refl a.directory b.files⟩
      · simp at hi
      · cases hi
    · obtain ⟨order, h⟩ := exists_explains hready hjobs hnamer hmade hne
      refine ⟨fun i => h.finished_of_turns, fun i result => h.result_eq, fun hall => ?_⟩
      have hgrown := FileTree.makeDirectories_grown b.files a.directory
      rw [hmade] at hgrown
      refine ⟨h.same.here.symm.trans hgrown.here, h.same.sealed.symm.trans hgrown.sealed,
        h.bodies.trans hgrown.bodies, fun loc => ?_⟩
      rw [h.get?_eq_of_finished hready hall loc]
      rcases hgrown.get? loc with hsame | ⟨hnone, hdir, q, hq, hloc⟩
      · exact .inl hsame
      · exact .inr ⟨hnone, hdir, q, hq, h.same.locate hloc⟩

/-- Two assemblies in turn, the second of which draws its name first. -/
theorem assemblies_never_mix_alternating :
    let tool := Tool.scripted "tool"
    let a : Assembler := ⟨["tool", "copy"], .ofString "/work/out", .whole 30⟩
    let texts : Fin 2 → String := fun i => if i = 0 then "(module)" else ""
    let jobs : Fin 2 → Job := fun i => ⟨a, texts i, true⟩
    let b : Bench := { files := { entries := [(["work"], .directory)] }, namer := .counter "x" 9 }
    let schedule : List (Fin 2) := (List.replicate 10 [1, 0]).flatten
    let finish := (Crew.start 2 b).run tool jobs schedule
    b.files.makeDirectories a.directory = (b.files.set ["work", "out"] .directory, .ok ()) ∧
      b.namer.drawMany 2 = ["x-9", "x-10"] ∧
      (∀ i, finish.phases i = .finished (.ok (Text.encode (texts i)))) ∧
      Grown a.directory b.files finish.bench.files := by
  intro tool a texts jobs b schedule finish
  have hmade : b.files.makeDirectories a.directory =
      (b.files.set ["work", "out"] .directory, .ok ()) := by
    rw [show a.directory = ⟨.root, ["work", "out"]⟩ from rfl]
    dsimp only [b]
    rfl
  have hdrawn : b.namer.drawMany 2 = ["x-9", "x-10"] := by rfl
  have hvacant : ∀ name ∈ b.namer.drawMany 2, Vacant (b.files.set ["work", "out"] .directory)
      (Pair.under a.directory name) := by
    rw [hdrawn]
    dsimp only [a, b]
    intro name hname r
    refine ⟨["work", "out", name ++ r.extension], ?_⟩
    rcases List.mem_cons.mp hname with rfl | hname
    · cases r <;> exact ⟨rfl, rfl, rfl⟩
    · obtain rfl := List.mem_singleton.mp hname
      cases r <;> exact ⟨rfl, rfl, rfl⟩
  have hjobs : ∀ i, (jobs i).assembler = a := fun _ => rfl
  have htool : tool.Copies a.command := Tool.copies_scripted (by decide)
  have hcommand : a.command.any hasNul = false := by decide
  have hproper : a.directory.Proper := Path.proper_ofString _
  have hnamer : b.namer = .counter "x" 9 := rfl
  have hturns : ∀ i, 10 ≤ schedule.count i := by
    dsimp only [schedule]
    decide
  obtain ⟨-, hfinished, -, hgrown⟩ :=
    assemblies_never_mix hjobs htool hcommand hproper hnamer hmade hvacant schedule
  refine ⟨hmade, hdrawn, fun i => ?_, hgrown fun i => ⟨rfl, _, hfinished i (hturns i)⟩⟩
  rw [hfinished i (hturns i), Job.copied, RawText.encode_ofString]
  rfl

end Assembly

end StackLang
