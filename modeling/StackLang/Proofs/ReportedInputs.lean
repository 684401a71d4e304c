import StackLang.Proofs.ProgramRoutes

/-!
# The inputs of a reported run

A reply to a request to run a program repeats the inputs. An engine that reduces its inputs sees
only the words that they leave modulo `2 ^ 32`, so the reply speaks of the run that took place when
each input is one of the two readings of its word, with or without a sign. This is what fitting into
32 bits means.

Inputs come in two ways. Those in the body of a request are checked, and one that does not fit is
refused. Those that are set are read without a bound, and the reply repeats them as they are. So a
reply may speak of inputs that do not fit, and this is so exactly when the request gives none and
those that are set do not fit.

## Main definitions

* `Service.Fits`, `Service.ReadsBack` — integers of 32 bits, and readings of their own words
* `Engine.Reduces` — engines that see no more of an input than its word

## Main results

* `Service.fits_iff_readsBack` — what fitting into 32 bits means
* `Service.fits_of_checkRun` — inputs in a body fit
* `Service.status_runReply_iff` — when a run is reported
* `Service.reported_inputs_fit_iff` — when the inputs of a reported run fit
* `Service.set_input_truncated` — an input that does not fit is reported
-/

namespace StackLang

namespace Service

/-! ## Fitting into 32 bits -/

/-- The integer fits into 32 bits, signed or unsigned. -/
def Fits (n : Int) : Prop := minInput ≤ n ∧ n ≤ maxInput

instance (n : Int) : Decidable (Fits n) := inferInstanceAs (Decidable (_ ∧ _))

/-- The integer is a reading of its own word, so that nothing of it is lost. -/
def ReadsBack (n : Int) : Prop :=
  (Word.ofInteger n).toSigned = n ∨ ((Word.ofInteger n).toNat : Int) = n

/-- **An integer fits exactly when it is a reading of its own word.** -/
theorem fits_iff_readsBack (n : Int) : Fits n ↔ ReadsBack n := by
  have hsigned : (Word.ofInteger n).toSigned = n.bmod (2 ^ 32) := BitVec.toInt_ofInt n
  have hunsigned : ((Word.ofInteger n).toNat : Int) = n % 2 ^ 32 := by
    rw [Word.toNat_ofInteger, Word.residue]
    exact Int.toNat_of_nonneg (Int.emod_nonneg n (by decide))
  rw [ReadsBack, hsigned, hunsigned, Fits, minInput, maxInput, Int.bmod_def]
  split <;> omega

/-! ## Inputs in a body -/

theorem inRange_eq_ok_iff {n m : Int} : inRange n = .ok m ↔ n = m ∧ Fits n := by
  rw [inRange, Fits]
  split
  · simp only [reduceCtorEq, false_iff]
    omega
  · split
    · simp only [reduceCtorEq, false_iff]
      omega
    · simp only [Except.ok.injEq]
      omega

/-- An input that passes the check fits. -/
theorem fits_of_checkInput {index : Nat} {v : Json} {n : Int} (h : checkInput index v = .ok n) :
    Fits n := by
  rw [checkInput] at h
  cases hvalue : integerValue v with
  | error cause =>
    rw [hvalue] at h
    cases h
  | ok m =>
    rw [hvalue] at h
    cases hrange : inRange m with
    | error cause =>
      simp only [bind, Except.bind, hrange] at h
      cases h
    | ok k =>
      simp only [bind, Except.bind, hrange, Except.ok.injEq] at h
      obtain ⟨rfl, hfits⟩ := inRange_eq_ok_iff.mp hrange
      exact h ▸ hfits

/-- What each item of a list is checked for holds of all that comes of the list. -/
theorem forall_of_checkItems {α : Type} {check : Nat → Json → Checked α} {P : α → Prop}
    (hcheck : ∀ {index v a}, check index v = .ok a → P a) {items : List Json} {index : Nat}
    {as : List α} (h : checkItems check index items = .ok as) : ∀ a ∈ as, P a := by
  induction items generalizing index as with
  | nil =>
    cases h
    exact fun a ha => absurd ha List.not_mem_nil
  | cons v vs ih =>
    rw [checkItems] at h
    cases hhead : check index v with
    | error es =>
      cases htail : checkItems check (index + 1) vs <;> rw [hhead, htail] at h <;> cases h
    | ok a =>
      cases htail : checkItems check (index + 1) vs with
      | error es =>
        rw [hhead, htail] at h
        cases h
      | ok rest =>
        rw [hhead, htail] at h
        cases h
        exact List.forall_mem_cons.mpr ⟨hcheck hhead, ih htail⟩

/-- The two inputs of a list fit. -/
theorem fits_of_checkPair {items : List Json} {pair : Int × Int}
    (h : checkPair items = .ok pair) : Fits pair.1 ∧ Fits pair.2 := by
  rw [checkPair] at h
  split at h
  · cases h
  · split at h
    · cases h
    · rename_i a b hitems
      cases h
      have hall := forall_of_checkItems fits_of_checkInput hitems
      exact ⟨hall a (by simp), hall b (by simp)⟩
    · cases h

/-- **Inputs in a body fit**: a body is taken with inputs that fit, or without any. -/
theorem fits_of_checkRun {v : Json} {asked : RunRequest} (h : checkRun v = .ok asked)
    {pair : Int × Int} (hinputs : asked.inputs = some pair) : Fits pair.1 ∧ Fits pair.2 := by
  have hfield : ∀ body, checkInputs body = .ok (some pair) → Fits pair.1 ∧ Fits pair.2 := by
    intro body hbody
    rw [checkInputs] at hbody
    split at hbody
    · cases hbody
    · cases hbody
    · split at hbody
      · rename_i items given hpair
        cases hbody
        exact fits_of_checkPair hpair
      · cases hbody
    · cases hbody
  rw [checkRun] at h
  cases hobject : checkObject v with
  | error es =>
    rw [hobject] at h
    cases h
  | ok body =>
    cases htokens : checkTokens body <;> cases hgiven : checkInputs body <;>
      simp only [hobject, htokens, hgiven, both, bind, Except.bind] at h <;> cases h
    exact hfield body (hgiven.trans (congrArg _ hinputs))

end Service

/-! ## Reported runs -/

/-- The engine sees only the words of the inputs. -/
def Engine.Reduces [Engine] : Prop :=
  ∀ {binary library call}, Engine.link binary library = .ok call → ∀ {given pair : Int × Int},
    Word.ofInteger given.1 = Word.ofInteger pair.1 →
    Word.ofInteger given.2 = Word.ofInteger pair.2 → call given = call pair

/-- The engine that comes with the language is such an engine. -/
theorem Wasm.engine_reduces : Engine.Reduces := by
  intro binary library call hlink given pair hfirst hsecond
  rw [Engine.link, engine] at hlink
  dsimp only at hlink
  split at hlink
  · obtain rfl := Except.ok.inj hlink
    rw [answer, answer, Wasm.call, Wasm.call, hfirst, hsecond]
  · cases hlink

/-- A program that was imported was linked by the engine. -/
theorem Execution.exists_link_of_importProgram [Engine] {s : Session} {cleanup : Bool}
    {tokens : List String} {linked : Linked} {b b' : Bench}
    (h : (importProgram s cleanup tokens).run.run b = (.ok linked, b')) :
    ∃ binary library, Engine.link binary library = .ok linked.call := by
  have hlinked : ∀ {a : Assembler} {p : Program} {library : Option Bytes} {c : Bench},
      (do let binary ← assemble s a cleanup p.text
          Work.ofExcept (link binary library (some p)) : Work Linked).run.run c = (.ok linked, b') →
        ∃ binary library, Engine.link binary library = .ok linked.call := by
    intro a p library c hrun
    obtain ⟨binary, d, -, hlast⟩ := Work.exists_of_run_bind_ok hrun
    rw [Work.run_ofExcept, link] at hlast
    cases hlink : Engine.link binary library with
    | error e =>
      rw [hlink] at hlast
      cases (Prod.mk.inj hlast).1
    | ok call =>
      rw [hlink] at hlast
      exact ⟨binary, library, Except.ok.inj (Prod.mk.inj hlast).1 ▸ hlink⟩
  rw [importProgram] at h
  obtain ⟨p, c, -, hafter⟩ := Work.exists_of_run_bind_ok h
  obtain ⟨a, d, -, hrest⟩ := Work.exists_of_run_bind_ok hafter
  dsimp only at hrest
  split at hrest
  · obtain ⟨library, e, -, hlast⟩ := Work.exists_of_run_bind_ok hrest
    exact hlinked hlast
  · obtain ⟨library, e, -, hlast⟩ := Work.exists_of_run_bind_ok hrest
    exact hlinked hlast

/-- On such an engine a run sees no more of the inputs than their words. -/
theorem Execution.run_runRaw_congr [Engine] (hreduces : Engine.Reduces) {given pair : Int × Int}
    (hfirst : Word.ofInteger given.1 = Word.ofInteger pair.1)
    (hsecond : Word.ofInteger given.2 = Word.ofInteger pair.2) (s : Session) (cleanup : Bool)
    (tokens : List RawText) (b : Bench) :
    (runRaw s cleanup tokens given).run.run b = (runRaw s cleanup tokens pair).run.run b := by
  cases htexts : Program.textsOf tokens with
  | error f => rw [run_runRaw_of_textsOf_error htexts, run_runRaw_of_textsOf_error htexts]
  | ok texts =>
    rw [run_runRaw_of_textsOf_ok htexts, run_runRaw_of_textsOf_ok htexts, runProgram, runProgram]
    rcases himport : (importProgram s cleanup texts).run.run b with ⟨f | linked, b'⟩
    · rw [Work.run_bind_of_error himport, Work.run_bind_of_error himport]
    · obtain ⟨binary, library, hlink⟩ := exists_link_of_importProgram himport
      rw [Work.run_bind_of_ok himport, Work.run_bind_of_ok himport, compute, compute,
        hreduces hlink hfirst hsecond]

namespace Service

variable {s : Execution.Session} {r : Request} {asked : RunRequest} {b : Bench}

/-- A run with an integer as its result is reported with the inputs that it was started with. -/
theorem runReply_of_result [Engine] {pair : Int × Int} {value : Value} {result : Int} {b' : Bench}
    (hinputs : inputsOf s asked = .ok pair)
    (hrun : (Execution.runRaw s true asked.tokens pair).run.run b = (.ok (some value), b'))
    (hresult : integerOf? value = some result) (path : String) :
    runReply s path asked b = (⟨200, .json (runJson asked.tokens (pair, result)), none⟩, b') := by
  have hpair : (Work.ofExcept (inputsOf s asked)).run.run b = (.ok pair, b) := by
    rw [hinputs, Work.run_ofExcept]
  have hwork : (runWork s asked).run.run b = (.ok (pair, result), b') := by
    rw [runWork, Work.run_bind_of_ok hpair, Work.run_bind_of_ok hrun, Option.bind_some, hresult]
    rfl
  rw [runReply, answer, hwork]

/-- **When a run is reported**: the inputs are there, and the program has an integer as its
result. -/
theorem status_runReply_iff [Engine] (path : String) :
    (runReply s path asked b).1.status = 200 ↔
      ∃ pair value result b', inputsOf s asked = .ok pair ∧ integerOf? value = some result ∧
        (Execution.runRaw s true asked.tokens pair).run.run b = (.ok (some value), b') := by
  constructor
  · intro hstatus
    have hfailed : ∀ {f b'}, (runWork s asked).run.run b ≠ (.error f, b') := by
      intro f b' h
      rw [runReply, answer, h, failedReply_fst] at hstatus
      exact status_ofFault_ne f hstatus
    have hpair := Work.run_ofExcept (inputsOf s asked) b
    rw [runWork] at hfailed
    cases hinputs : inputsOf s asked with
    | error f =>
      rw [hinputs] at hpair hfailed
      exact absurd (Work.run_bind_of_error hpair _) hfailed
    | ok pair =>
      rw [hinputs] at hpair hfailed
      rw [Work.run_bind_of_ok hpair] at hfailed
      rcases hrun : (Execution.runRaw s true asked.tokens pair).run.run b with ⟨f | value?, b'⟩
      · exact absurd (Work.run_bind_of_error hrun _) hfailed
      · rw [Work.run_bind_of_ok hrun] at hfailed
        cases hresult : value?.bind integerOf? with
        | none =>
          rw [hresult] at hfailed
          exact absurd rfl hfailed
        | some result =>
          obtain ⟨value, rfl, hvalue⟩ := Option.bind_eq_some_iff.mp hresult
          exact ⟨pair, value, result, b', rfl, hvalue, hrun⟩
  · rintro ⟨pair, value, result, b', hinputs, hresult, hrun⟩
    rw [runReply_of_result hinputs hrun hresult]

/-- A request asks for one program. -/
theorem AsksToRun.unique {asked' : RunRequest} (h : AsksToRun r asked) (h' : AsksToRun r asked') :
    asked = asked' := by
  obtain ⟨v, hread, hcheck⟩ := h.body
  obtain ⟨v', hread', hcheck'⟩ := h'.body
  obtain rfl := Except.ok.inj (hread.symm.trans hread')
  exact Except.ok.inj (hcheck.symm.trans hcheck')

/-- A request that gets a reply of success on this route asks to run a program. -/
theorem exists_asksToRun [Engine] (hroute : locate r.method r.path = .route .run)
    (hstatus : (handle s r b).1.status = 200) : ∃ asked, AsksToRun r asked := by
  unfold handle at hstatus
  rw [hroute] at hstatus
  change (withBody r checkRun _ b).1.status = 200 at hstatus
  rw [withBody] at hstatus
  have hcomplaints : ∀ cs, (Reply.ofComplaints cs).status ≠ 200 := by
    intro cs
    rw [Reply.ofComplaints, Reply.send]
    split
    · exact ne_of_beq_false rfl
    · split <;> exact ne_of_beq_false rfl
  split at hstatus
  · exact absurd hstatus (ne_of_beq_false rfl)
  · exact absurd hstatus (hcomplaints _)
  · rename_i v hread
    split at hstatus
    · exact absurd hstatus (hcomplaints _)
    · rename_i asked hcheck
      exact ⟨asked, hroute, v, hread, hcheck⟩

/-! ## Programs with a value -/

/-- With an assembler that hands back what it is given, a program whose tree has a value is reported
with that value. -/
theorem handle_of_value {a : Assembler} (hassembler : s.assembler = .ok a)
    (hprebuilt : s.settings.prebuiltLibrary? = none)
    (hsource : s.settings.librarySource = .bundled)
    (hkept : ∀ bytes, b.library = some bytes → bytes = Text.encode Wasm.powerLibrary)
    (hback : Assembly.HandsBack s.tool a true 2 b) {texts : List String}
    {given : Option (Int × Int)} (hasks : AsksToRun r ⟨texts.map .ofString, given⟩)
    {pair : Int × Int} (hinputs : inputsOf s ⟨texts.map .ofString, given⟩ = .ok pair) {e : Expr}
    (he : e.tokens = texts) {p : Program} (hp : Program.compile texts = .ok p)
    {w : Word} (hvalue : e.value? Expr.power (Word.ofInteger pair.1) (Word.ofInteger pair.2)
      = some w) :
    (handle s r b).1 = ⟨200, .json (runJson (texts.map .ofString) (pair, w.toSigned)), none⟩ := by
  have hresult := Execution.run_runProgram hassembler hprebuilt hsource hkept hback hp he pair
  have hoption := Wasm.toOption_linkedOutcome p.needsLibrary e (Word.ofInteger pair.1)
    (Word.ofInteger pair.2)
  rw [hvalue] at hoption
  cases houtcome : Wasm.linkedOutcome p.needsLibrary e (Word.ofInteger pair.1)
      (Word.ofInteger pair.2) with
  | error trap =>
    rw [houtcome] at hoption
    cases hoption
  | ok word =>
    rw [houtcome] at hoption hresult
    obtain rfl : word = w := Option.some.inj hoption
    have hrun : (Execution.runRaw s true (texts.map .ofString) pair).run.run b =
        (.ok (some (.int word.toSigned)),
          ((Execution.runProgram s true texts pair).run.run b).2) := by
      rw [Execution.run_runRaw_of_textsOf_ok (Program.textsOf_map texts)]
      exact Prod.ext hresult rfl
    rw [hasks.handle_eq, runReply_of_result hinputs hrun rfl]

/-- Settings for work in the directory `/work`. -/
def workSettings (inputs logLevel : String) : Settings :=
  { assembler := "wat2wasm", timeout := .ofInt 30, artifactDir := "/work", libraryWasm := "",
    inputs, logLevel, librarySource := .bundled, temporary := "/tmp" }

/-- The copying tool with these settings. -/
def workSession (inputs logLevel : String) : Execution.Session :=
  ⟨workSettings inputs logLevel, .copying,
    Assembler.create (workSettings inputs logLevel) [] "" none⟩

/-- A bench with the directory `/work` and nothing else. -/
def workBench (namer : Namer) : Bench := { files := { entries := [(["work"], .directory)] }, namer }

theorem assembler_workSession (inputs logLevel : String) :
    (workSession inputs logLevel).assembler
      = .ok ⟨["wat2wasm"], .ofString "/work", .real (.ofInt 30)⟩ := by
  have hcommand : (workSettings inputs logLevel).command = .ok ["wat2wasm"] := by
    have hsplit : ShellWords.split "wat2wasm" = .ok ["wat2wasm"] := by decide
    rw [Settings.command, workSettings, hsplit]
  rw [workSession, Assembler.create, if_pos rfl, hcommand]
  rfl

/-- The assembler of these settings hands back what it is given. -/
theorem handsBack_workBench {namer : Namer} (hnames : ∀ name ∈ namer.drawMany 2,
      Assembly.Stageable (workBench namer).files ["work"] name) :
    Assembly.HandsBack .copying ⟨["wat2wasm"], .ofString "/work", .real (.ofInt 30)⟩ true 2
      (workBench namer) := by
  have husable : Assembly.Usable ⟨["wat2wasm"], .ofString "/work", .real (.ofInt 30)⟩
      (workBench namer).files ["work"] :=
    { proper := by decide
      command := by decide
      patient := by decide
      located := by rfl
      directory := rfl }
  exact Assembly.handsBack_copying husable hnames

/-- With these settings and numbered names, a program whose tree has a value is reported. -/
theorem handle_workSession {inputs : String} (logLevel : String) (texts : List String)
    {given : Option (Int × Int)} (hasks : AsksToRun r ⟨texts.map .ofString, given⟩)
    {pair : Int × Int}
    (hinputs : inputsOf (workSession inputs logLevel) ⟨texts.map .ofString, given⟩ = .ok pair)
    (e : Expr) (he : e.tokens = texts) {p : Program} (hp : Program.compile texts = .ok p) {w : Word}
    (hvalue : e.value? Expr.power (Word.ofInteger pair.1) (Word.ofInteger pair.2) = some w) :
    (handle (workSession inputs logLevel) r (workBench (.counter Namer.defaultStem 1))).1
      = ⟨200, .json (runJson (texts.map .ofString) (pair, w.toSigned)), none⟩ := by
  have hdrawn : (Namer.counter Namer.defaultStem 1).drawMany 2 = ["rerun-1", "rerun-2"] := by rfl
  have hnames : ∀ name ∈ (Namer.counter Namer.defaultStem 1).drawMany 2,
      Assembly.Stageable (workBench (.counter Namer.defaultStem 1)).files ["work"] name := by
    rw [hdrawn]
    decide
  have hprebuilt : (workSession inputs logLevel).settings.prebuiltLibrary? = none := if_pos rfl
  have hkept : ∀ bytes, (workBench (.counter Namer.defaultStem 1)).library = some bytes →
      bytes = Text.encode Wasm.powerLibrary := by
    intro bytes hbytes
    cases hbytes
  exact handle_of_value (assembler_workSession inputs logLevel) hprebuilt rfl hkept
    (handsBack_workBench hnames) hasks hinputs he hp hvalue

/-! ## Inputs that fit -/

/-- **When the inputs of a reported run fit.** Let a request be answered with success on the route
that runs programs. Then it asked for a program, and the reply repeats the program, its inputs and
the result of a run on these inputs. If the engine sees only words, then every run on inputs with
the same words is that run. The inputs fit exactly when nothing of them is lost, and this is so
exactly when the request gave them, or when those that are set fit. -/
theorem reported_inputs_fit_iff [Engine] (hroute : locate r.method r.path = .route .run)
    (hstatus : (handle s r b).1.status = 200) :
    ∃ asked pair value result, AsksToRun r asked ∧ inputsOf s asked = .ok pair ∧
      integerOf? value = some result ∧
      (handle s r b).1 = ⟨200, .json (runJson asked.tokens (pair, result)), none⟩ ∧
      (Execution.runRaw s true asked.tokens pair).run.run b
        = (.ok (some value), (handle s r b).2) ∧
      (Engine.Reduces → ∀ given : Int × Int, Word.ofInteger given.1 = Word.ofInteger pair.1 →
        Word.ofInteger given.2 = Word.ofInteger pair.2 →
        (Execution.runRaw s true asked.tokens given).run.run b
          = (.ok (some value), (handle s r b).2)) ∧
      (Fits pair.1 ∧ Fits pair.2 ↔ ReadsBack pair.1 ∧ ReadsBack pair.2) ∧
      (Fits pair.1 ∧ Fits pair.2 ↔ asked.inputs.isSome ∨
        ∃ set, Inputs.parseRaw s.settings.inputs = .ok set ∧ Fits set.1 ∧ Fits set.2) := by
  obtain ⟨asked, hasks⟩ := exists_asksToRun hroute hstatus
  rw [hasks.handle_eq] at hstatus ⊢
  obtain ⟨pair, value, result, b', hinputs, hresult, hrun⟩ := (status_runReply_iff _).mp hstatus
  rw [runReply_of_result hinputs hrun hresult]
  refine ⟨asked, pair, value, result, hasks, hinputs, hresult, rfl, hrun, ?_, ?_, ?_⟩
  · intro hreduces given hfirst hsecond
    rw [Execution.run_runRaw_congr hreduces hfirst hsecond, hrun]
  · rw [fits_iff_readsBack, fits_iff_readsBack]
  · obtain ⟨v, -, hcheck⟩ := hasks.body
    rw [inputsOf] at hinputs
    cases hgiven : asked.inputs with
    | some given =>
      rw [hgiven] at hinputs
      cases hinputs
      exact iff_of_true (fits_of_checkRun hcheck hgiven) (.inl rfl)
    | none =>
      rw [hgiven] at hinputs
      simp only [hinputs, Option.isSome_none, Bool.false_eq_true, false_or, Except.ok.injEq,
        exists_eq_left']

/-- The least and the greatest input that fit, in the body of a request: they are reported, and
nothing of them is lost. -/
theorem reported_inputs_fit_iff_bounds :
    let r : Request := ⟨"POST", "/programs/run", some "application/json",
      some "\x7b\"tokens\": [\"p1\", \"p2\", \"sub\"], \"inputs\": [-2147483648, 4294967295]\x7d"⟩
    let s := workSession "665,1" "WARNING"
    let b := workBench (.counter Namer.defaultStem 1)
    locate r.method r.path = .route .run ∧ (handle s r b).1.status = 200 ∧
      (∃ result, (handle s r b).1 = ⟨200, .json (runJson ["p1", "p2", "sub"]
        ((-2147483648, 4294967295), result)), none⟩) ∧
      (∃ value, (∀ given : Int × Int, Word.ofInteger given.1 = Word.ofInteger (-2147483648) →
        Word.ofInteger given.2 = Word.ofInteger 4294967295 →
        (Execution.runRaw s true ["p1", "p2", "sub"] given).run.run b
          = (.ok (some value), (handle s r b).2))) ∧
      ReadsBack (-2147483648) ∧ ReadsBack 4294967295 := by
  intro r s b
  have hasks : AsksToRun r ⟨["p1", "p2", "sub"], some (-2147483648, 4294967295)⟩ :=
    ⟨by decide, exists_body_of_toOption (by decide +kernel)⟩
  have hinputs : inputsOf s ⟨["p1", "p2", "sub"], some (-2147483648, 4294967295)⟩
      = .ok (-2147483648, 4294967295) := rfl
  have hvalue : (Expr.node (.arith .sub) (.param .p1) (.param .p2)).value? Expr.power
      (Word.ofInteger (-2147483648)) (Word.ofInteger 4294967295) = some 2147483649 := by decide
  have hreply := handle_workSession "WARNING" ["p1", "p2", "sub"] hasks hinputs _ rfl rfl hvalue
  have hstatus : (handle s r b).1.status = 200 := by rw [hreply]
  obtain ⟨asked, pair, value, result, hasked, hpair, -, heq, -, hwords, hreads, hfits⟩ :=
    reported_inputs_fit_iff hasks.route hstatus
  obtain rfl := hasked.unique hasks
  cases hpair
  exact ⟨hasks.route, hstatus, ⟨result, heq⟩, ⟨value, hwords Wasm.engine_reduces⟩,
    hreads.mp (hfits.mpr (.inl rfl))⟩

/-- **An input that is set may be truncated without a word.** The number of words itself, as the
first input that is set: the reply repeats it, and the result is that of zero. -/
theorem set_input_truncated :
    let r : Request := ⟨"POST", "/programs/run", some "application/json",
      some "\x7b\"tokens\": [\"p1\"]\x7d"⟩
    let s := workSession "4294967296,0" "WARNING"
    let b := workBench (.counter Namer.defaultStem 1)
    AsksToRun r ⟨["p1"], none⟩ ∧ inputsOf s ⟨["p1"], none⟩ = .ok (4294967296, 0) ∧
      (handle s r b).1 = ⟨200, .json (runJson ["p1"] ((4294967296, 0), 0)), none⟩ ∧
      ¬ Fits 4294967296 := by
  intro r s b
  have hasks : AsksToRun r ⟨["p1"], none⟩ :=
    ⟨by decide, exists_body_of_toOption (by decide +kernel)⟩
  have hinputs : inputsOf s ⟨["p1"], none⟩ = .ok (4294967296, 0) := by decide +kernel
  have hreply := handle_workSession "WARNING" ["p1"] hasks hinputs (.param .p1) rfl rfl rfl
  exact ⟨hasks, hinputs, hreply, by decide⟩

end Service

end StackLang
