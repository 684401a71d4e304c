import Mathlib.Control.Monad.Basic
import StackLang.Proofs.Moves
import StackLang.Proofs.RunProgram

/-!
# The kept library

Runs on one assembler share a library that is assembled when a program first needs it and kept from
then on. This file follows what is kept, and how often something is assembled, through any row of
runs. Each of them may find other settings and a tool that behaves differently, and most things can
go wrong in between: a program that does not compile, a tool that fails on the library or on the
program, a module that cannot be linked, a trap.

An assembly does two things to the books of the bench: it counts itself, and it leaves the kept
library alone. A run is therefore told by how it comes by its library. Nothing ever takes a kept
library away, so the one that was assembled first is linked by all later runs.

## Main definitions

* `Execution.Call` — one run among others on the same assembler
* `Execution.Call.finish` — what is left to do when the library is there
* `Execution.Call.AssemblesLibrary` — a run that assembles the library, and what comes of it
* `Execution.Assembled` — the library was assembled by one of several runs

## Main results

* `Assembly.assemble_books` — what an assembly does to the books
* `Execution.Call.library_run_iff` — the library that is kept after one run
* `Execution.library_runAll_iff` — the library that is kept after any row of runs
* `Execution.library_assembled_at_most_once` — how often a run assembles, and what it links
-/

namespace StackLang

/-! ## The books of a bench -/

/-- The benches agree on the kept library and on how many assemblies were begun. -/
structure Bench.SameBooks (b b' : Bench) : Prop where
  library : b'.library = b.library
  assemblies : b'.assemblies = b.assemblies

namespace Assembly

theorem removeStaged_sameBooks {path : Path} {b b' : Bench} {result : Except Fault Unit}
    (h : removeStaged path b = (result, b')) : b.SameBooks b' := by
  obtain ⟨files, log, rfl⟩ := removeStaged_frame h
  exact ⟨rfl, rfl⟩

/-- No step of an assembly touches the books. -/
theorem Moves.sameBooks {tool : Tool} {job : Job} {event : Event} {s s' : Phase × Bench}
    (h : Moves tool job event s s') : s.2.SameBooks s'.2 := by
  cases h with
  | cleared _ hremove | uncleared _ hremove => exact removeStaged_sameBooks hremove
  | clearedOutput hremove | unclearedOutput hremove => exact removeStaged_sameBooks hremove
  | _ => exact ⟨rfl, rfl⟩

/-- **What an assembly does to the books.** It counts itself when it begins, and that is all. -/
theorem assemble_books {tool : Tool} {job : Job} {b b' : Bench} {result : Except Fault Bytes}
    (h : (assemble tool job).run.run b = (result, b')) :
    b'.library = b.library ∧ b'.assemblies = b.assemblies + 1 := by
  have hends := ends_assemble tool job b
  rw [h] at hends
  obtain ⟨events, hrun⟩ := hends
  have hbooks : (fresh b).2.SameBooks (run tool job events (fresh b)).2 := by
    refine run_induction (P := fun s => (fresh b).2.SameBooks s.2) ?_ ⟨rfl, rfl⟩ events
    intro event s s' hmoves hs
    have hnext := hmoves.sameBooks
    exact ⟨hnext.library.trans hs.library, hnext.assemblies.trans hs.assemblies⟩
  rw [hrun] at hbooks
  exact ⟨hbooks.library, hbooks.assemblies⟩

end Assembly

namespace Execution

/-! ## The text of the library -/

theorem run_get (b : Bench) : (get : Work Bench).run.run b = (.ok b, b) := rfl

theorem run_fetchBytes (path : Path) (b : Bench) :
    (fetchBytes path).run.run b = (Assembly.readBytes path b, b) := by
  rw [fetchBytes, Work.run_bind_of_ok (run_get b), Work.run_ofExcept]

/-- The text of the library as the bench has it. -/
def sourceText (b : Bench) : LibrarySource → Except Fault String
  | .bundled => .ok Wasm.powerLibrary
  | .file path => do
    match Text.decode? (← Assembly.readBytes path b) with
    | some s => return String.ofList (unifyBreaks s.toList)
    | none => throw .notUtf8

/-- Reading the text of the library leaves the bench as it is. -/
theorem run_libraryText (source : LibrarySource) (b : Bench) :
    (libraryText source).run.run b = (sourceText b source, b) := by
  cases source with
  | bundled => rfl
  | file path =>
    have hfetch := run_fetchBytes path b
    rw [libraryText, sourceText]
    cases hread : Assembly.readBytes path b with
    | error f =>
      rw [hread] at hfetch
      exact Work.run_bind_of_error hfetch _
    | ok bytes =>
      rw [hread] at hfetch
      rw [Work.run_bind_of_ok hfetch]
      cases hdecode : Text.decode? bytes <;> simp only [bind, Except.bind, hdecode] <;> rfl

/-! ## Single runs -/

/-- One run among others on the same assembler: the settings and the tool as they are at that time,
and what is to be run. -/
structure Call where
  settings : Settings
  tool : Tool
  cleanup : Bool
  tokens : List String
  inputs : Int × Int

/-- The bench when a program has been compiled. -/
def compiled (p : Program) (b : Bench) : Bench := b.tell (.compiled p.instrs.length p.imports)

namespace Call

/-- What the run is made with. -/
def session (c : Call) (a : Assembler) : Session := ⟨c.settings, c.tool, .ok a⟩

/-- How the run ends, and the bench that it leaves. -/
def run [Engine] (c : Call) (a : Assembler) (b : Bench) :
    Except Fault (Option Value) × Bench :=
  (runProgram (c.session a) c.cleanup c.tokens c.inputs).run.run b

/-- What comes of loading the library. -/
def load (c : Call) (a : Assembler) (b : Bench) : Except Fault Bytes × Bench :=
  (loadLibrary (c.session a) a c.cleanup).run.run b

/-- What is left to do when the library is there: to assemble the program, to link it with the
library and to call it. -/
def finish [Engine] (c : Call) (a : Assembler) (p : Program) (library : Option Bytes) :
    Work (Option Value) := do
  let binary ← assemble (c.session a) a c.cleanup p.text
  let linked ← Work.ofExcept (link binary library (some p))
  Work.ofExcept (compute linked c.inputs)

/-- While the run loads the library, it assembles it, with this result. -/
def AssemblesLibrary (c : Call) (a : Assembler) (b : Bench) (result : Except Fault Bytes) : Prop :=
  ∃ p, Program.compile c.tokens = .ok p ∧ p.needsLibrary = true ∧
    (c.load a (compiled p b)).1 = result ∧
    b.assemblies < (c.load a (compiled p b)).2.assemblies

variable {c : Call} {a : Assembler} {b b' : Bench} {p : Program} {f : Fault} {bytes : Bytes}

/-! ### The parts of a run -/

section

variable [Engine]

theorem run_of_uncompiled (h : Program.compile c.tokens = .error f) (b : Bench) :
    c.run a b = (.error f, b) := by
  rw [run, runProgram, importProgram, bind_assoc,
    Work.run_bind_of_error (run_compile_of_error h b)]

/-- A program that compiles comes by its library, if it needs one, and goes on from there. -/
theorem run_of_compiled (h : Program.compile c.tokens = .ok p) (b : Bench) :
    c.run a b = ((if p.needsLibrary then some <$> loadLibrary (c.session a) a c.cleanup
      else pure none) >>= c.finish a p).run.run (compiled p b) := by
  have hassembler : (Work.ofExcept (c.session a).assembler).run.run (compiled p b) =
      (.ok a, compiled p b) := rfl
  rw [run, runProgram, importProgram, bind_assoc, Work.run_bind_of_ok (run_compile_of_ok h b),
    bind_assoc, ← compiled, Work.run_bind_of_ok hassembler]
  cases p.needsLibrary <;> simp only [Bool.false_eq_true, if_true, if_false, bind_assoc] <;> rfl

theorem run_of_plain (h : Program.compile c.tokens = .ok p) (hneeds : p.needsLibrary = false)
    (b : Bench) : c.run a b = (c.finish a p none).run.run (compiled p b) := by
  rw [run_of_compiled h, hneeds, if_neg Bool.false_ne_true, pure_bind]

theorem run_of_loaded (h : Program.compile c.tokens = .ok p) (hneeds : p.needsLibrary = true)
    (hload : c.load a (compiled p b) = (.ok bytes, b')) :
    c.run a b = (c.finish a p (some bytes)).run.run b' := by
  rw [run_of_compiled h, hneeds, if_pos rfl, Work.run_bind_of_ok (Work.run_map_of_ok hload some)]

theorem run_of_unloaded (h : Program.compile c.tokens = .ok p) (hneeds : p.needsLibrary = true)
    (hload : c.load a (compiled p b) = (.error f, b')) : c.run a b = (.error f, b') := by
  rw [run_of_compiled h, hneeds, if_pos rfl, bind_map_left, Work.run_bind_of_error hload]

/-- The part after the library looks at the bench to assemble the program, and never again. -/
theorem run_finish {library : Option Bytes} {result : Except Fault Bytes}
    (h : (assemble (c.session a) a c.cleanup p.text).run.run b = (result, b')) :
    (c.finish a p library).run.run b = (do
      let binary ← result
      let linked ← link binary library (some p)
      compute linked c.inputs, b') := by
  cases result with
  | error f => exact Work.run_bind_of_error h _
  | ok binary =>
    rw [finish, Work.run_bind_of_ok h]
    cases hlink : link binary library (some p) with
    | error f =>
      rw [Work.run_bind_of_error (Work.run_ofExcept _ b')]
      simp [bind, Except.bind, hlink]
    | ok linked =>
      rw [Work.run_bind_of_ok (Work.run_ofExcept _ b'), Work.run_ofExcept]
      simp [bind, Except.bind, hlink]

theorem finish_books (c : Call) (a : Assembler) (p : Program) (library : Option Bytes)
    (b : Bench) :
    let after := ((c.finish a p library).run.run b).2
    after.library = b.library ∧ after.assemblies = b.assemblies + 1 := by
  intro after
  rcases hrun : (assemble (c.session a) a c.cleanup p.text).run.run b with ⟨result, b'⟩
  have hafter : after = b' := congrArg Prod.snd (run_finish hrun)
  rw [hafter]
  exact Assembly.assemble_books hrun

theorem run_books_of_plain (h : Program.compile c.tokens = .ok p)
    (hneeds : p.needsLibrary = false) (b : Bench) :
    (c.run a b).2.library = b.library ∧ (c.run a b).2.assemblies = b.assemblies + 1 := by
  rw [run_of_plain h hneeds]
  exact c.finish_books a p none (compiled p b)

end

/-! ### The ways to come by the library -/

/-- What can come of loading the library. -/
inductive Loads (c : Call) (a : Assembler) (b : Bench) : Except Fault Bytes → Bench → Prop
  /-- One is set, and it is read, or cannot be read. -/
  | prebuilt {path} (hset : c.settings.prebuiltLibrary? = some path) :
    Loads c a b (Assembly.readBytes path b) (b.tell (.prebuilt path))
  /-- One was kept. -/
  | kept {library} (hunset : c.settings.prebuiltLibrary? = none)
    (hkept : b.library = some library) : Loads c a b (.ok library) b
  /-- Its text cannot be read. -/
  | unread {fault} (hunset : c.settings.prebuiltLibrary? = none) (hnone : b.library = none)
    (htext : sourceText b c.settings.librarySource = .error fault) :
    Loads c a b (.error fault) b
  /-- It is assembled now, without success. -/
  | failed {text fault after} (hunset : c.settings.prebuiltLibrary? = none)
    (hnone : b.library = none)
    (htext : sourceText b c.settings.librarySource = .ok text)
    (hrun : (assemble (c.session a) a c.cleanup text).run.run b = (.error fault, after)) :
    Loads c a b (.error fault) after
  /-- It is assembled now, and kept. -/
  | made {text library after} (hunset : c.settings.prebuiltLibrary? = none)
    (hnone : b.library = none)
    (htext : sourceText b c.settings.librarySource = .ok text)
    (hrun : (assemble (c.session a) a c.cleanup text).run.run b = (.ok library, after)) :
    Loads c a b (.ok library) { after with library := some library }

theorem load_of_set {path : Path} (h : c.settings.prebuiltLibrary? = some path) (b : Bench) :
    c.load a b = (Assembly.readBytes path b, b.tell (.prebuilt path)) := by
  have hsession : (c.session a).settings.prebuiltLibrary? = some path := h
  have htell : (Work.tell (.prebuilt path)).run.run b = (.ok (), b.tell (.prebuilt path)) := rfl
  rw [load, loadLibrary, hsession]
  dsimp only
  rw [Work.run_bind_of_ok htell, run_fetchBytes]
  rfl

theorem load_of_kept (h : c.settings.prebuiltLibrary? = none) (hkept : b.library = some bytes) :
    c.load a b = (.ok bytes, b) := by
  have hsession : (c.session a).settings.prebuiltLibrary? = none := h
  rw [load, loadLibrary, hsession]
  dsimp only
  rw [Work.run_bind_of_ok (run_get b), hkept]
  rfl

theorem load_of_missing (h : c.settings.prebuiltLibrary? = none) (hnone : b.library = none) :
    c.load a b = (do
      let text ← libraryText c.settings.librarySource
      let bytes ← assemble (c.session a) a c.cleanup text
      modify fun b => { b with library := some bytes }
      return bytes : Work Bytes).run.run b := by
  have hsession : (c.session a).settings.prebuiltLibrary? = none := h
  rw [load, loadLibrary, hsession]
  dsimp only
  rw [Work.run_bind_of_ok (run_get b), hnone]
  rfl

theorem load_of_unread (h : c.settings.prebuiltLibrary? = none) (hnone : b.library = none)
    (htext : sourceText b c.settings.librarySource = .error f) : c.load a b = (.error f, b) := by
  have hrun := run_libraryText c.settings.librarySource b
  rw [htext] at hrun
  rw [load_of_missing h hnone, Work.run_bind_of_error hrun]

/-- A library whose text is there is assembled, and kept if this succeeds. -/
theorem load_of_read {text : String} {result : Except Fault Bytes}
    (h : c.settings.prebuiltLibrary? = none) (hnone : b.library = none)
    (htext : sourceText b c.settings.librarySource = .ok text)
    (hrun : (assemble (c.session a) a c.cleanup text).run.run b = (result, b')) :
    c.load a b = (result, match result with
      | .ok library => { b' with library := some library }
      | .error _ => b') := by
  have hread := run_libraryText c.settings.librarySource b
  rw [htext] at hread
  rw [load_of_missing h hnone, Work.run_bind_of_ok hread]
  cases result with
  | error f => rw [Work.run_bind_of_error hrun]
  | ok library =>
    rw [Work.run_bind_of_ok hrun]
    rfl

/-- **Nothing else can come of loading the library.** -/
theorem load_loads (c : Call) (a : Assembler) (b : Bench) :
    c.Loads a b (c.load a b).1 (c.load a b).2 := by
  cases hset : c.settings.prebuiltLibrary? with
  | some path =>
    rw [load_of_set hset]
    exact .prebuilt hset
  | none =>
    cases hlibrary : b.library with
    | some bytes =>
      rw [load_of_kept hset hlibrary]
      exact .kept hset hlibrary
    | none =>
      cases htext : sourceText b c.settings.librarySource with
      | error f =>
        rw [load_of_unread hset hlibrary htext]
        exact .unread hset hlibrary htext
      | ok text =>
        rcases hrun : (assemble (c.session a) a c.cleanup text).run.run b with ⟨f | bytes, b'⟩
        · rw [load_of_read hset hlibrary htext hrun]
          exact .failed hset hlibrary htext hrun
        · rw [load_of_read hset hlibrary htext hrun]
          exact .made hset hlibrary htext hrun

/-- Either nothing is assembled and the kept library stays, or there was none and it is assembled
now: it is kept if this succeeds. -/
theorem Loads.books {result : Except Fault Bytes} (h : c.Loads a b result b') :
    b'.library = b.library ∧ b'.assemblies = b.assemblies ∨
      c.settings.prebuiltLibrary? = none ∧ b.library = none ∧
        b'.library = result.toOption ∧ b'.assemblies = b.assemblies + 1 := by
  cases h with
  | prebuilt => exact .inl ⟨rfl, rfl⟩
  | kept => exact .inl ⟨rfl, rfl⟩
  | unread => exact .inl ⟨rfl, rfl⟩
  | failed hunset hnone htext hrun =>
    obtain ⟨hlibrary, hcount⟩ := Assembly.assemble_books hrun
    exact .inr ⟨hunset, hnone, hlibrary.trans hnone, hcount⟩
  | made hunset hnone htext hrun =>
    exact .inr ⟨hunset, hnone, rfl, (Assembly.assemble_books hrun).2⟩

/-! ### What one run keeps -/

/-- The library is assembled only if none is set and none was kept. -/
theorem AssemblesLibrary.needed {result : Except Fault Bytes}
    (h : c.AssemblesLibrary a b result) :
    c.settings.prebuiltLibrary? = none ∧ b.library = none := by
  obtain ⟨p, -, -, -, hmore⟩ := h
  rcases (c.load_loads a (compiled p b)).books with ⟨-, hsame⟩ | ⟨hunset, hnone, -, -⟩
  · exact absurd hmore (Nat.not_lt.mpr (Nat.le_of_eq hsame))
  · exact ⟨hunset, hnone⟩

theorem AssemblesLibrary.unique {result result' : Except Fault Bytes}
    (h : c.AssemblesLibrary a b result) (h' : c.AssemblesLibrary a b result') :
    result = result' := by
  obtain ⟨p, hp, -, hresult, -⟩ := h
  obtain ⟨q, hq, -, hresult', -⟩ := h'
  obtain rfl := Except.ok.inj (hp.symm.trans hq)
  exact hresult.symm.trans hresult'

/-- The text that comes with the language can always be read, and is then assembled. -/
theorem exists_assemblesLibrary (hp : Program.compile c.tokens = .ok p)
    (hneeds : p.needsLibrary = true) (hunset : c.settings.prebuiltLibrary? = none)
    (hnone : b.library = none) (hsource : c.settings.librarySource = .bundled) :
    ∃ result, c.AssemblesLibrary a b result := by
  have htext : sourceText (compiled p b) c.settings.librarySource = .ok Wasm.powerLibrary := by
    rw [hsource]
    rfl
  refine ⟨_, p, hp, hneeds, rfl, ?_⟩
  rcases hrun : (assemble (c.session a) a c.cleanup Wasm.powerLibrary).run.run (compiled p b) with
    ⟨result, after⟩
  have hload := load_of_read hunset (show (compiled p b).library = none from hnone) htext hrun
  have hcount : after.assemblies = b.assemblies + 1 := (Assembly.assemble_books hrun).2
  rw [hload]
  cases result with
  | error f => exact Nat.lt_of_lt_of_eq (Nat.lt_succ_self _) hcount.symm
  | ok library => exact Nat.lt_of_lt_of_eq (Nat.lt_succ_self _) hcount.symm

section

variable [Engine]

/-- A program that has its library is assembled, and the books are otherwise left alone. -/
theorem run_books_of_loaded (h : Program.compile c.tokens = .ok p) (hneeds : p.needsLibrary = true)
    (hload : c.load a (compiled p b) = (.ok bytes, b')) :
    (c.run a b).2.library = b'.library ∧ (c.run a b).2.assemblies = b'.assemblies + 1 := by
  rw [run_of_loaded h hneeds hload]
  exact c.finish_books a p (some bytes) b'

theorem run_books_of_kept (h : Program.compile c.tokens = .ok p) (hneeds : p.needsLibrary = true)
    (hunset : c.settings.prebuiltLibrary? = none) (hkept : b.library = some bytes) :
    (c.run a b).2.library = some bytes ∧ (c.run a b).2.assemblies = b.assemblies + 1 := by
  have hcompiled : (compiled p b).library = some bytes := hkept
  obtain ⟨hlibrary, hcount⟩ := run_books_of_loaded h hneeds (load_of_kept (a := a) hunset hcompiled)
  exact ⟨hlibrary.trans hcompiled, hcount⟩

theorem assemblies_run_of_readable {path : Path} (h : Program.compile c.tokens = .ok p)
    (hneeds : p.needsLibrary = true) (hset : c.settings.prebuiltLibrary? = some path)
    (hread : b.files.read path = .ok bytes) : (c.run a b).2.assemblies = b.assemblies + 1 := by
  have hbytes : Assembly.readBytes path (compiled p b) = .ok bytes := by
    rw [Assembly.readBytes, show (compiled p b).files.read path = .ok bytes from hread]
  have hload := load_of_set (a := a) hset (compiled p b)
  rw [hbytes] at hload
  exact (run_books_of_loaded h hneeds hload).2

/-- A library that is set and cannot be read ends the run before anything is assembled. -/
theorem assemblies_run_of_unreadable {path : Path} {e : FileError}
    (h : Program.compile c.tokens = .ok p) (hneeds : p.needsLibrary = true)
    (hset : c.settings.prebuiltLibrary? = some path) (hread : b.files.read path = .error e) :
    (c.run a b).2.assemblies = b.assemblies := by
  have hfault : Assembly.readBytes path (compiled p b) = .error (.ofFile "read" path e) := by
    rw [Assembly.readBytes, show (compiled p b).files.read path = .error e from hread]
  have hload := load_of_set (a := a) hset (compiled p b)
  rw [hfault] at hload
  exact congrArg (·.2.assemblies) (run_of_unloaded h hneeds hload)

/-- The library could not be assembled: nothing is kept, and the run ends there. -/
theorem AssemblesLibrary.run_of_error (h : c.AssemblesLibrary a b (.error f)) :
    (c.run a b).1 = .error f ∧ (c.run a b).2.library = none ∧
      (c.run a b).2.assemblies = b.assemblies + 1 := by
  obtain ⟨p, hp, hneeds, hresult, hmore⟩ := h
  have hload : c.load a (compiled p b) = (.error f, (c.load a (compiled p b)).2) :=
    Prod.ext hresult rfl
  rw [run_of_unloaded hp hneeds hload]
  rcases (c.load_loads a (compiled p b)).books with ⟨-, hsame⟩ | ⟨-, -, hlibrary, hcount⟩
  · exact absurd hmore (Nat.not_lt.mpr (Nat.le_of_eq hsame))
  · rw [hresult] at hlibrary
    exact ⟨rfl, hlibrary, hcount⟩

/-- The library was assembled: it is kept, and the program is linked with it. -/
theorem AssemblesLibrary.run_of_ok (h : c.AssemblesLibrary a b (.ok bytes))
    (hp : Program.compile c.tokens = .ok p) :
    (c.run a b).2.library = some bytes ∧ (c.run a b).2.assemblies = b.assemblies + 2 ∧
      c.run a b = (c.finish a p (some bytes)).run.run (c.load a (compiled p b)).2 := by
  obtain ⟨q, hq, hneeds, hresult, hmore⟩ := h
  obtain rfl := Except.ok.inj (hp.symm.trans hq)
  have hload : c.load a (compiled p b) = (.ok bytes, (c.load a (compiled p b)).2) :=
    Prod.ext hresult rfl
  obtain ⟨hkept, hcount⟩ := run_books_of_loaded hp hneeds hload
  rcases (c.load_loads a (compiled p b)).books with ⟨-, hsame⟩ | ⟨-, -, hlibrary, hone⟩
  · exact absurd hmore (Nat.not_lt.mpr (Nat.le_of_eq hsame))
  · rw [hresult] at hlibrary
    exact ⟨hkept.trans hlibrary, by rw [hcount, hone]; rfl, run_of_loaded hp hneeds hload⟩

/-- What is kept after a run was kept before, unless the run assembles the library. -/
theorem library_run (c : Call) (a : Assembler) (b : Bench) :
    (c.run a b).2.library = b.library ∧ (∀ result, ¬ c.AssemblesLibrary a b result) ∨
      ∃ result, c.AssemblesLibrary a b result ∧ (c.run a b).2.library = result.toOption := by
  cases h : Program.compile c.tokens with
  | error f =>
    refine .inl ⟨by rw [run_of_uncompiled h], ?_⟩
    rintro result ⟨p, hp, -⟩
    cases h.symm.trans hp
  | ok p =>
    cases hneeds : p.needsLibrary with
    | false =>
      refine .inl ⟨(run_books_of_plain h hneeds b).1, ?_⟩
      rintro result ⟨q, hq, hneeded, -⟩
      obtain rfl := Except.ok.inj (h.symm.trans hq)
      cases hneeds.symm.trans hneeded
    | true =>
      have hlibrary : (c.run a b).2.library = (c.load a (compiled p b)).2.library := by
        rcases hload : c.load a (compiled p b) with ⟨f | bytes, b'⟩
        · rw [run_of_unloaded h hneeds hload]
        · exact (run_books_of_loaded h hneeds hload).1
      rcases (c.load_loads a (compiled p b)).books with ⟨hkept, hsame⟩ | ⟨-, -, hresult, hmore⟩
      · refine .inl ⟨hlibrary.trans hkept, ?_⟩
        rintro result ⟨q, hq, -, -, hmore⟩
        obtain rfl := Except.ok.inj (h.symm.trans hq)
        exact absurd hmore (Nat.not_lt.mpr (Nat.le_of_eq hsame))
      · refine .inr ⟨_, ⟨p, h, hneeds, rfl, ?_⟩, hlibrary.trans hresult⟩
        rw [hmore]
        exact Nat.lt_succ_self _

theorem library_run_of_some (h : b.library = some bytes) : (c.run a b).2.library = some bytes := by
  rcases c.library_run a b with ⟨hkept, -⟩ | ⟨result, hassembles, -⟩
  · exact hkept.trans h
  · cases hassembles.needed.2.symm.trans h

/-- **What is kept after one run** if nothing was kept before: what the run has assembled. -/
theorem library_run_iff (h : b.library = none) :
    (c.run a b).2.library = some bytes ↔ c.AssemblesLibrary a b (.ok bytes) := by
  rcases c.library_run a b with ⟨hkept, hnever⟩ | ⟨result, hassembles, hlibrary⟩
  · rw [hkept, h]
    constructor
    · intro hsome
      cases hsome
    · intro hassembles
      exact absurd hassembles (hnever _)
  · rw [hlibrary]
    constructor
    · intro hsome
      cases result with
      | error f => cases hsome
      | ok library =>
        obtain rfl := Option.some.inj hsome
        exact hassembles
    · intro hother
      rw [hassembles.unique hother]
      rfl

end

end Call

/-! ## Rows of runs -/

section

variable [Engine]

/-- The bench after runs, one after another, on one assembler. -/
def runAll (a : Assembler) (calls : List Call) (b : Bench) : Bench :=
  calls.foldl (fun b c => (c.run a b).2) b

/-- One of the runs has assembled the library, to these bytes. -/
def Assembled (a : Assembler) (b : Bench) (calls : List Call) (bytes : Bytes) : Prop :=
  ∃ before c after, calls = before ++ c :: after ∧
    c.AssemblesLibrary a (runAll a before b) (.ok bytes)

variable {a : Assembler} {b : Bench} {bytes : Bytes}

theorem runAll_concat (calls : List Call) (c : Call) :
    runAll a (calls ++ [c]) b = (c.run a (runAll a calls b)).2 := by
  rw [runAll, List.foldl_append]
  rfl

theorem assembled_concat_iff {calls : List Call} {c : Call} :
    Assembled a b (calls ++ [c]) bytes ↔
      Assembled a b calls bytes ∨ c.AssemblesLibrary a (runAll a calls b) (.ok bytes) := by
  constructor
  · rintro ⟨before, d, after, hcalls, hassembles⟩
    rcases after.eq_nil_or_concat with rfl | ⟨more, last, rfl⟩
    · obtain ⟨rfl, hd⟩ := List.append_inj' hcalls rfl
      obtain rfl := List.singleton_inj.mp hd
      exact .inr hassembles
    · rw [List.concat_eq_append, ← List.cons_append, ← List.append_assoc] at hcalls
      obtain ⟨rfl, -⟩ := List.append_inj' hcalls rfl
      exact .inl ⟨before, d, more, rfl, hassembles⟩
  · rintro (⟨before, d, after, rfl, hassembles⟩ | hassembles)
    · exact ⟨before, d, after ++ [c], by simp, hassembles⟩
    · exact ⟨calls, c, [], rfl, hassembles⟩

/-- **What is kept after any row of runs**: what one of them has assembled. A later run neither
takes it away nor assembles another one. -/
theorem library_runAll_iff (h : b.library = none) (calls : List Call) :
    (runAll a calls b).library = some bytes ↔ Assembled a b calls bytes := by
  induction calls using List.reverseRecOn generalizing bytes with
  | nil =>
    constructor
    · intro hsome
      cases h.symm.trans hsome
    · rintro ⟨before, c, after, hnil, -⟩
      simp at hnil
  | append_singleton calls c ih =>
    rw [runAll_concat, assembled_concat_iff, ← ih]
    cases hlibrary : (runAll a calls b).library with
    | none => simp [Call.library_run_iff hlibrary]
    | some library =>
      have hnever : ¬ c.AssemblesLibrary a (runAll a calls b) (.ok bytes) := by
        intro hassembles
        cases hassembles.needed.2.symm.trans hlibrary
      simp [Call.library_run_of_some hlibrary, hnever]

end

/-- **The library is assembled when it is needed, and once.** On an assembler that starts without a
library, any row of runs is followed by one more. If its tokens do not compile, it assembles
nothing. A program without powers is assembled and nothing else. For a program with powers and a
library that is set, the program is assembled if that library can be read, and the kept one is left
alone. If none is set, everything depends on the runs before. If one of them has assembled the
library, the program is assembled and linked with those bytes. Otherwise the library is assembled
now; if this fails, nothing is kept and the program is not assembled, and if it succeeds, the
program comes next. What the engine makes of all this does not matter. -/
theorem library_assembled_at_most_once [Engine] {a : Assembler} {b : Bench}
    (hfresh : b.library = none) (before : List Call) (call : Call) :
    let start := runAll a before b
    let finish := (call.run a start).2
    (∀ f, Program.compile call.tokens = .error f → finish.assemblies = start.assemblies) ∧
      ∀ p, Program.compile call.tokens = .ok p →
        ("cpow" ∉ call.tokens → finish.assemblies = start.assemblies + 1) ∧
        ("cpow" ∈ call.tokens → ∀ path, call.settings.prebuiltLibrary? = some path →
          finish.library = start.library ∧
          (∀ bytes, start.files.read path = .ok bytes →
            finish.assemblies = start.assemblies + 1) ∧
          ∀ e, start.files.read path = .error e → finish.assemblies = start.assemblies) ∧
        ("cpow" ∈ call.tokens → call.settings.prebuiltLibrary? = none →
          (∀ bytes, Assembled a b before bytes →
            (∀ result, ¬ call.AssemblesLibrary a start result) ∧
            finish.library = some bytes ∧ finish.assemblies = start.assemblies + 1 ∧
            call.run a start = (call.finish a p (some bytes)).run.run (compiled p start)) ∧
          ((¬ ∃ bytes, Assembled a b before bytes) →
            (call.settings.librarySource = .bundled →
              ∃ result, call.AssemblesLibrary a start result) ∧
            (∀ f, call.AssemblesLibrary a start (.error f) →
              (call.run a start).1 = .error f ∧ finish.library = none ∧
              finish.assemblies = start.assemblies + 1) ∧
            ∀ bytes, call.AssemblesLibrary a start (.ok bytes) →
              finish.library = some bytes ∧ finish.assemblies = start.assemblies + 2 ∧
              call.run a start =
                (call.finish a p (some bytes)).run.run (call.load a (compiled p start)).2)) := by
  intro start finish
  refine ⟨fun f hf => ?_, fun p hp => ?_⟩
  · exact congrArg (·.2.assemblies) (Call.run_of_uncompiled hf start)
  rw [← Program.needsLibrary_iff_mem hp, Bool.not_eq_true]
  refine ⟨fun hneeds => ?_, fun hneeds path hset => ⟨?_, fun bytes hread => ?_, fun e hread => ?_⟩,
    fun hneeds hunset => ⟨fun bytes hearlier => ?_, fun hnever => ⟨fun hsource => ?_, ?_, ?_⟩⟩⟩
  · exact (Call.run_books_of_plain hp hneeds start).2
  · rcases call.library_run a start with ⟨hkept, -⟩ | ⟨result, hassembles, -⟩
    · exact hkept
    · cases hassembles.needed.1.symm.trans hset
  · exact Call.assemblies_run_of_readable hp hneeds hset hread
  · exact Call.assemblies_run_of_unreadable hp hneeds hset hread
  · have hkept : start.library = some bytes := (library_runAll_iff hfresh before).mpr hearlier
    have hload := Call.load_of_kept (a := a) (b := compiled p start) hunset hkept
    obtain ⟨hlibrary, hcount⟩ := Call.run_books_of_kept (a := a) hp hneeds hunset hkept
    refine ⟨fun result hagain => ?_, hlibrary, hcount, Call.run_of_loaded hp hneeds hload⟩
    cases hagain.needed.2.symm.trans hkept
  · have hnone : start.library = none := by
      refine Option.eq_none_iff_forall_ne_some.mpr fun bytes hkept => ?_
      exact hnever ⟨bytes, (library_runAll_iff hfresh before).mp hkept⟩
    exact Call.exists_assemblesLibrary hp hneeds hunset hnone hsource
  · exact fun f hassembles => hassembles.run_of_error
  · exact fun bytes hassembles => hassembles.run_of_ok hp

/-- A tool that is missing at first: the library is tried for in vain, then assembled, then kept. -/
theorem library_assembled_at_most_once_missing_tool :
    let a : Assembler := ⟨["wat2wasm"], .ofString "/work", .whole 30⟩
    let settings : Settings :=
      { assembler := "wat2wasm", timeout := .ofInt 30, artifactDir := "/work", libraryWasm := "",
        inputs := "665,1", logLevel := "WARNING", librarySource := .file (.ofString "/lib.wat"),
        temporary := "/tmp" }
    let call : Tool → Call := fun tool => ⟨settings, tool, true, ["p1", "p2", "cpow"], (2, 5)⟩
    let broken := call fun _ _ => .refused .notFound
    let sound := call .copying
    let b : Bench :=
      { files :=
          { entries := [(["work"], .directory), (["lib.wat"], .file (Text.encode "(module)"))] }
        namer := .counter Namer.defaultStem 1 }
    b.library = none ∧
      (runAll a [broken] b).library = none ∧ (runAll a [broken] b).assemblies = 1 ∧
      (runAll a [broken, sound] b).assemblies = 3 ∧
      (runAll a [broken, sound, sound] b).assemblies = 4 ∧
      (runAll a [broken, sound, sound] b).library = some (Text.encode "(module)") := by
  intro a settings call broken sound b
  have hfresh : b.library = none := rfl
  have hzero : b.assemblies = 0 := rfl
  obtain ⟨p, hbroken, hsound⟩ : ∃ p, Program.compile broken.tokens = .ok p ∧
      Program.compile sound.tokens = .ok p := ⟨_, rfl, rfl⟩
  have hpower : "cpow" ∈ broken.tokens ∧ "cpow" ∈ sound.tokens := by decide
  have hunset : broken.settings.prebuiltLibrary? = none ∧
      sound.settings.prebuiltLibrary? = none := ⟨rfl, rfl⟩
  have hrefused : broken.AssemblesLibrary a b (.error (Assembly.startFault
      ["wat2wasm", "/work/rerun-1.wat", "-o", "/work/rerun-1.wasm"] .notFound)) := by
    refine ⟨_, rfl, rfl, ?_⟩
    dsimp only [broken, call, settings, a, b]
    decide +kernel
  have hmade : sound.AssemblesLibrary a (runAll a [broken] b)
      (.ok (Text.encode "(module)")) := by
    refine ⟨_, rfl, rfl, ?_⟩
    dsimp only [broken, sound, call, settings, a, b]
    decide +kernel
  -- from here on it does not matter what the two calls are
  clear_value broken sound a b
  have hall := library_assembled_at_most_once (a := a) hfresh
  have hnever : ∀ {calls}, (runAll a calls b).library = none →
      ¬ ∃ bytes, Assembled a b calls bytes := by
    rintro calls hnone ⟨bytes, hassembled⟩
    cases hnone.symm.trans ((library_runAll_iff hfresh calls).mpr hassembled)
  have hone := ((((hall [] broken).2 p hbroken).2.2 hpower.1 hunset.1).2 (hnever hfresh)).2.1 _
    hrefused
  rw [← runAll_concat, List.nil_append] at hone
  have hthree := ((((hall [broken] sound).2 p hsound).2.2 hpower.2 hunset.2).2
    (hnever hone.2.1)).2.2 _ hmade
  rw [← runAll_concat, List.singleton_append] at hthree
  have hkept := (library_runAll_iff hfresh [broken, sound]).mp hthree.1
  have hfour := (((hall [broken, sound] sound).2 p hsound).2.2 hpower.2 hunset.2).1 _ hkept
  rw [← runAll_concat, List.cons_append, List.singleton_append] at hfour
  have hcount : (runAll a [broken] b).assemblies = 1 := by
    rw [hone.2.2, runAll, List.foldl_nil, hzero]
  exact ⟨hfresh, hone.2.1, hcount, by rw [hthree.2.1, hcount],
    by rw [hfour.2.2.1, hthree.2.1, hcount], hfour.2.1⟩

end Execution

end StackLang
