import StackLang.Proofs.CopyingTool
import StackLang.Proofs.FirstFault
import StackLang.Proofs.Linking

/-!
# Running a program

The whole way from tokens to a result, with an assembler that hands back the texts it is given. A
program that does not compile ends with the fault of the compiler. A program that compiles is
assembled, linked and called, and none of these can fail: it ends with the value of its tree, or
with a trap if the evaluation of the tree divides by zero.

Two assemblies are needed at most, one for the library and one for the program; the library is
assembled only if the program calls it and it was not assembled before.

## Main results

* `Expr.value?_power_eq_none_iff` — a tree has no value when its evaluation divides by zero
* `Execution.run_importProgram` — what is linked
* `Execution.runProgram_ends` — how a run ends
-/

namespace StackLang

/-! ## Division by zero -/

namespace Expr

/-- Somewhere in the tree, a quotient or a remainder has a divisor with the value zero. -/
def DividesByZero (p1 p2 : Word) : Expr → Prop
  | .param _ => False
  | .literal _ => False
  | .node op left right =>
    left.DividesByZero p1 p2 ∨ right.DividesByZero p1 p2 ∨
      (op = .arith .div ∨ op = .arith .rem) ∧ right.value? power p1 p2 = some 0

/-- Powers have a value always, so that only divisions can trap. -/
theorem traps_power_iff {p1 p2 : Word} (e : Expr) :
    e.Traps power p1 p2 ↔ e.DividesByZero p1 p2 := by
  constructor
  · intro h
    induction h with
    | left _ ih => exact .inl ih
    | right _ ih => exact .inr (.inl ih)
    | divisor hop hright =>
      rcases hop with rfl | rfl
      · exact .inr (.inr ⟨.inl rfl, hright⟩)
      · exact .inr (.inr ⟨.inr rfl, hright⟩)
    | library _ _ h => exact nomatch h
  · intro h
    induction e with
    | param p => exact h.elim
    | literal l => exact h.elim
    | node op left right ihl ihr =>
      rcases h with h | h | ⟨rfl | rfl, hright⟩
      · exact .left (ihl h)
      · exact .right (ihr h)
      · exact .divisor (.inl rfl) hright
      · exact .divisor (.inr rfl) hright

/-- **A tree has no value exactly when its evaluation divides by zero.** -/
theorem value?_power_eq_none_iff {p1 p2 : Word} (e : Expr) :
    e.value? power p1 p2 = none ↔ e.DividesByZero p1 p2 :=
  (value?_eq_none_iff e).trans (traps_power_iff e)

end Expr

/-! ## Work in steps -/

namespace Work

variable {α β : Type} {x : Work α} {b b' : Bench}

theorem run_bind_of_ok {a : α} (h : x.run.run b = (.ok a, b')) (f : α → Work β) :
    (x >>= f).run.run b = (f a).run.run b' := by
  rw [ExceptT.run_bind, StateT.run_bind, h]
  rfl

theorem run_bind_of_error {e : Fault} (h : x.run.run b = (.error e, b')) (f : α → Work β) :
    (x >>= f).run.run b = (.error e, b') := by
  rw [ExceptT.run_bind, StateT.run_bind, h]
  rfl

/-- Work that succeeds in two steps succeeds in each of them. -/
theorem exists_of_run_bind_ok {f : α → Work β} {r : β} (h : (x >>= f).run.run b = (.ok r, b')) :
    ∃ a c, x.run.run b = (.ok a, c) ∧ (f a).run.run c = (.ok r, b') := by
  rcases hx : x.run.run b with ⟨e | a, c⟩
  · cases (run_bind_of_error hx f).symm.trans h
  · exact ⟨a, c, rfl, (run_bind_of_ok hx f).symm.trans h⟩

theorem run_map_of_ok {a : α} (h : x.run.run b = (.ok a, b')) (f : α → β) :
    (f <$> x).run.run b = (.ok (f a), b') := by
  rw [ExceptT.run_map, StateT.run_map, h]
  rfl

theorem run_ofExcept (r : Except Fault α) (b : Bench) : (ofExcept r).run.run b = (r, b) := by
  cases r <;> rfl

end Work

/-! ## Programs -/

namespace Execution

open Assembly (HandsBack)

variable {s : Session} {a : Assembler} {cleanup : Bool} {b : Bench}

theorem run_compile_of_ok {tokens : List String} {p : Program}
    (h : Program.compile tokens = .ok p) (b : Bench) :
    (compile tokens).run.run b = (.ok p, b.tell (.compiled p.instrs.length p.imports)) := by
  rw [compile, h]
  rfl

theorem run_compile_of_error {tokens : List String} {f : Fault}
    (h : Program.compile tokens = .error f) (b : Bench) :
    (compile tokens).run.run b = (.error f, b) := by
  rw [compile, h]
  rfl

theorem exists_run_assemble {count : Nat} (h : HandsBack s.tool a cleanup (count + 1) b)
    (text : String) :
    ∃ b', (assemble s a cleanup text).run.run b = (.ok (Text.encode text), b') ∧
      HandsBack s.tool a cleanup count b' := h text

/-- The library is the one that comes with the language, whether it was kept or is assembled now. -/
theorem run_loadLibrary (hprebuilt : s.settings.prebuiltLibrary? = none)
    (hsource : s.settings.librarySource = .bundled)
    (hkept : ∀ bytes, b.library = some bytes → bytes = Text.encode Wasm.powerLibrary)
    (hback : HandsBack s.tool a cleanup 2 b) :
    ∃ b', (loadLibrary s a cleanup).run.run b = (.ok (Text.encode Wasm.powerLibrary), b') ∧
      HandsBack s.tool a cleanup 1 b' := by
  have hget : (get : Work Bench).run.run b = (.ok b, b) := rfl
  rw [loadLibrary, hprebuilt]
  dsimp only
  rw [Work.run_bind_of_ok hget]
  cases hlibrary : b.library with
  | some bytes =>
    obtain rfl := hkept bytes hlibrary
    exact ⟨b, rfl, hback.of_succ⟩
  | none =>
    obtain ⟨c, hrun, hrest⟩ := exists_run_assemble hback Wasm.powerLibrary
    have htext : (libraryText s.settings.librarySource).run.run b =
        (.ok Wasm.powerLibrary, b) := by
      rw [hsource]
      rfl
    dsimp only
    rw [Work.run_bind_of_ok htext, Work.run_bind_of_ok hrun]
    exact ⟨_, rfl, hrest.congr ⟨rfl, rfl, rfl⟩⟩

/-- **What is linked**: the text of the program, and the library if the program calls it. -/
theorem run_importProgram (hassembler : s.assembler = .ok a)
    (hprebuilt : s.settings.prebuiltLibrary? = none)
    (hsource : s.settings.librarySource = .bundled)
    (hkept : ∀ bytes, b.library = some bytes → bytes = Text.encode Wasm.powerLibrary)
    (hback : HandsBack s.tool a cleanup 2 b) {tokens : List String} {p : Program}
    (h : Program.compile tokens = .ok p) :
    ∃ b', (importProgram s cleanup tokens).run.run b =
      (link (Text.encode p.text)
        (if p.needsLibrary then some (Text.encode Wasm.powerLibrary) else none) (some p), b') := by
  let told := b.tell (.compiled p.instrs.length p.imports)
  have htold : HandsBack s.tool a cleanup 2 told := hback.congr ⟨rfl, rfl, rfl⟩
  have hlink : ∀ library {c}, HandsBack s.tool a cleanup 1 c → ∃ d,
      (do let binary ← assemble s a cleanup p.text
          Work.ofExcept (link binary library (some p)) : Work Linked).run.run c =
        (link (Text.encode p.text) library (some p), d) := by
    intro library c hc
    obtain ⟨d, hrun, -⟩ := exists_run_assemble hc p.text
    rw [Work.run_bind_of_ok hrun, Work.run_ofExcept]
    exact ⟨d, rfl⟩
  rw [importProgram, Work.run_bind_of_ok (run_compile_of_ok h b), hassembler,
    Work.run_bind_of_ok (Work.run_ofExcept _ told)]
  cases p.needsLibrary with
  | false =>
    have hnone : (pure none : Work (Option Bytes)).run.run told = (.ok none, told) := rfl
    change ∃ d, (pure none >>= _ : Work Linked).run.run told = _
    rw [Work.run_bind_of_ok hnone]
    exact hlink none htold.of_succ
  | true =>
    obtain ⟨c, hload, hrest⟩ := run_loadLibrary (b := told) hprebuilt hsource hkept htold
    change ∃ d, (some <$> loadLibrary s a cleanup >>= _).run.run told = _
    rw [Work.run_bind_of_ok (Work.run_map_of_ok hload some)]
    exact hlink _ hrest

/-- How a linked function of two words answers a call. -/
def answer : Except Wasm.Trap Word → Except Fault (Option Value)
  | .ok w => .ok (some w.toSigned)
  | .error t => .error (.trap (Wasm.CallError.trap t).message)

/-- A program that compiles is answered by its tree. -/
theorem run_runProgram (hassembler : s.assembler = .ok a)
    (hprebuilt : s.settings.prebuiltLibrary? = none)
    (hsource : s.settings.librarySource = .bundled)
    (hkept : ∀ bytes, b.library = some bytes → bytes = Text.encode Wasm.powerLibrary)
    (hback : HandsBack s.tool a cleanup 2 b) {tokens : List String} {p : Program}
    (h : Program.compile tokens = .ok p) {e : Expr} (he : e.tokens = tokens) (inputs : Int × Int) :
    ((runProgram s cleanup tokens inputs).run.run b).1 =
      answer (Wasm.linkedOutcome p.needsLibrary e (Word.ofInteger inputs.1)
        (Word.ofInteger inputs.2)) := by
  obtain ⟨b', himport⟩ := run_importProgram hassembler hprebuilt hsource hkept hback h
  obtain ⟨c, hlink, hcomputes⟩ := Wasm.exists_link h he
  have hengine : Engine.link (Text.encode p.text)
      (if p.needsLibrary then some (Text.encode Wasm.powerLibrary) else none) =
        .ok (Wasm.answer c) := by
    rw [Engine.link, Wasm.engine]
    dsimp only
    rw [hlink]
  rw [link, hengine] at himport
  rw [runProgram, Work.run_bind_of_ok himport, Work.run_ofExcept]
  simp only [compute, Wasm.answer, hcomputes.call]
  cases Wasm.linkedOutcome p.needsLibrary e (Word.ofInteger inputs.1) (Word.ofInteger inputs.2) <;>
    rfl

/-- **How a run ends.** With an assembler that hands back what it is given and with the library that
comes with the language, a run of tokens that do not compile ends with the fault of the compiler. A
run of a program traps exactly if the evaluation of its tree divides by zero, and gives the value of
the tree otherwise, read with its sign.

By `Assembly.handsBack_copying` the copying tool is such an assembler in every directory that it can
use. -/
theorem runProgram_ends (hassembler : s.assembler = .ok a) (hprebuilt : s.settings.libraryWasm = "")
    (hsource : s.settings.librarySource = .bundled)
    (hkept : ∀ bytes, b.library = some bytes → bytes = Text.encode Wasm.powerLibrary)
    (hback : HandsBack s.tool a cleanup 2 b) (tokens : List String) (p1 p2 : Int) :
    let outcome := ((runProgram s cleanup tokens (p1, p2)).run.run b).1
    (∀ f, Program.compile tokens = .error f → outcome = .error f ∧ ∀ cause, f ≠ .trap cause) ∧
      ∀ p, Program.compile tokens = .ok p → ∃ e : Expr, e.tokens = tokens ∧
        ((∃ cause, outcome = .error (.trap cause)) ∨ ∃ v : Word, outcome = .ok (some v.toSigned)) ∧
        ((∃ cause, outcome = .error (.trap cause)) ↔
          e.DividesByZero (Word.ofInteger p1) (Word.ofInteger p2)) ∧
        ∀ n, outcome = .ok (some n) ↔
          ∃ v, e.value? Expr.power (Word.ofInteger p1) (Word.ofInteger p2) = some v ∧
            v.toSigned = n := by
  intro outcome
  have hnone : s.settings.prebuiltLibrary? = none := if_pos hprebuilt
  refine ⟨fun f hf => ⟨?_, ?_⟩, fun p hp => ?_⟩
  · have himport : (importProgram s cleanup tokens).run.run b = (.error f, b) :=
      Work.run_bind_of_error (run_compile_of_error hf b) _
    exact congrArg Prod.fst (Work.run_bind_of_error himport _)
  · rintro cause rfl
    rcases Program.faultAt_or_stackImbalance_of_compile hf with ⟨i, token, hfault⟩ | ⟨d, hd⟩
    · exact nomatch hfault
    · exact nomatch hd
  · obtain ⟨e, he⟩ := Program.exists_tree_of_compile hp
    have houtcome : outcome = answer (Wasm.linkedOutcome p.needsLibrary e (Word.ofInteger p1)
        (Word.ofInteger p2)) := run_runProgram hassembler hnone hsource hkept hback hp he (p1, p2)
    refine ⟨e, he, ?_⟩
    rw [houtcome, ← Expr.value?_power_eq_none_iff, ← Wasm.toOption_linkedOutcome p.needsLibrary]
    cases Wasm.linkedOutcome p.needsLibrary e (Word.ofInteger p1) (Word.ofInteger p2) with
    | ok w => simp [answer, Except.toOption]
    | error t => simp [answer, Except.toOption]

/-- The copying tool in a directory of its own: the third power of `-3`, a remainder by an input
that is a multiple of the number of words, and an operator that comes too early. -/
theorem runProgram_ends_copying :
    let a : Assembler := ⟨["wat2wasm"], .ofString "/work", .whole 30⟩
    let s : Session :=
      { settings :=
          { assembler := "wat2wasm", timeout := .ofInt 30, artifactDir := "/work",
            libraryWasm := "", inputs := "665,1", logLevel := "WARNING", librarySource := .bundled,
            temporary := "/tmp" }
        tool := .copying
        assembler := .ok a }
    let b : Bench :=
      { files := { entries := [(["work"], .directory)] }, namer := .counter Namer.defaultStem 1 }
    HandsBack s.tool a true 2 b ∧
      ((runProgram s true ["p1", "p2", "cpow"] (-3, 3)).run.run b).1 = .ok (some (-27 : Int)) ∧
      (∃ cause, ((runProgram s true ["p1", "p2", "rem"] (7, 4294967296)).run.run b).1 =
        .error (.trap cause)) ∧
      ((runProgram s true ["p1", "add"] (1, 2)).run.run b).1 =
        .error (.stackUnderflow 1 "add" 1) := by
  intro a s b
  have husable : Assembly.Usable a b.files ["work"] :=
    { proper := by decide
      command := by decide
      patient := by decide
      located := by dsimp only [a, b]; rfl
      directory := rfl }
  have hdrawn : b.namer.drawMany 2 = ["rerun-1", "rerun-2"] := by rfl
  have hnames : ∀ name ∈ b.namer.drawMany 2, Assembly.Stageable b.files ["work"] name := by
    rw [hdrawn]
    decide
  have hback : HandsBack s.tool a true 2 b := Assembly.handsBack_copying husable hnames
  have hkept : ∀ bytes, b.library = some bytes → bytes = Text.encode Wasm.powerLibrary :=
    fun bytes h => nomatch (show none = some bytes from h)
  have hends := runProgram_ends (s := s) rfl rfl rfl hkept hback
  refine ⟨hback, ?_, ?_, ?_⟩
  · obtain ⟨e, he, -, -, hvalue⟩ := (hends ["p1", "p2", "cpow"] (-3) 3).2 _ rfl
    obtain rfl : e = .node .power (.param .p1) (.param .p2) := Expr.tokens_injective he
    exact (hvalue (-27 : Int)).mpr ⟨_, rfl, by decide⟩
  · obtain ⟨e, he, -, htrap, -⟩ := (hends ["p1", "p2", "rem"] 7 4294967296).2 _ rfl
    obtain rfl : e = .node (.arith .rem) (.param .p1) (.param .p2) := Expr.tokens_injective he
    exact htrap.mpr (.inr (.inr ⟨.inr rfl, by decide⟩))
  · exact ((hends ["p1", "add"] 1 2).1 _ rfl).1

end Execution

end StackLang
