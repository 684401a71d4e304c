import StackLang.Proofs.RawTokens
import StackLang.Service.Basic

/-!
# The two routes for programs

A request can ask to compile a program or to run it. This file compares the two answers. Both
routes begin with the compiler, and the route that runs a program does nothing to the bench before
the compiler is done; so a program that is refused gets one reply on both routes, and the bench
stays what it was.

The compiler has three faults that name something wrong with a program. There is a fourth way to
fail that is none of them: a literal with too many digits. It is not the fault of a program, so the
service has no words for it, and it shows exactly when the tokens before the literal are read
without a fault.

What is wrong with a program is told by repeating the token. A token that is no text is refused like
any other that is no instruction, but the reply that repeats it cannot be sent.

## Main results

* `Service.runReply_of_uncompiled` — a program that is refused has no effect
* `Service.routes_agree_on_refusal` — both routes refuse a program in the same words
* `Program.compileRaw_ends` — the ways in which the compiler ends
* `Service.compile_refuses_in_words_iff` — the compiler's three faults, and the fourth way to fail
-/

namespace StackLang

/-! ## Faults in words -/

theorem Fault.escaped_wording (f : Fault) : f.wording.escaped = f.message := by
  cases f with
  | garbledToken index token =>
    have hmessage : (garbledToken index token).message =
        "Rerun instruction #" ++ Number.int (index + 1) ++ " \"" ++ token.escaped
          ++ ("\"" ++ " is invalid.") := by
      rw [← String.append_assoc]
      rfl
    rw [wording, RawText.escaped_append, RawText.escaped_append, RawText.escaped_ofString,
      RawText.escaped_ofString, hmessage]
    rfl
  | garbledSetting words => rfl
  | _ => exact RawText.escaped_ofString _

/-- Words that are a text are the message. -/
theorem Fault.wording_eq_of_text {f : Fault} {text : String} (h : f.wording.text? = some text) :
    f.wording = .ofString f.message := by
  have hwording := RawText.text?_eq_some_iff.mp h
  rw [← f.escaped_wording, hwording, RawText.escaped_ofString]

/-- The words for a token that is no text are no text either. -/
theorem Fault.wording_garbledToken (index : Int) {token : RawText} (h : token.text? = none) :
    (Fault.garbledToken index token).wording.text? = none := by
  rw [wording, RawText.text?_append, RawText.text?_append, h]
  simp

namespace Service

variable {s : Execution.Session} {r : Request} {tokens : List RawText} {f : Fault} {b : Bench}

/-! ## Requests for programs -/

/-- The request asks to compile `tokens`. -/
structure AsksToCompile (r : Request) (tokens : List RawText) : Prop where
  route : locate r.method r.path = .route .compile
  body : ∃ v, readBody r = .ok v ∧ checkCompile v = .ok tokens

/-- The request asks to run a program. -/
structure AsksToRun (r : Request) (asked : RunRequest) : Prop where
  route : locate r.method r.path = .route .run
  body : ∃ v, readBody r = .ok v ∧ checkRun v = .ok asked

theorem withBody_of_ok {α : Type} {check : Json → Checked α} {v : Json} {a : α}
    (hread : readBody r = .ok v) (hcheck : check v = .ok a) (next : α → Bench → Reply × Bench)
    (b : Bench) : withBody r check next b = next a b := by
  simp only [withBody, hread, hcheck]

theorem AsksToCompile.handle_eq [Engine] (h : AsksToCompile r tokens) (s : Execution.Session)
    (b : Bench) :
    handle s r b = compileReply (dropBreak r.path) tokens b := by
  obtain ⟨v, hread, hcheck⟩ := h.body
  unfold handle
  rw [h.route]
  exact withBody_of_ok hread hcheck _ b

theorem AsksToRun.handle_eq [Engine] {asked : RunRequest} (h : AsksToRun r asked)
    (s : Execution.Session) (b : Bench) : handle s r b = runReply s (dropBreak r.path) asked b := by
  obtain ⟨v, hread, hcheck⟩ := h.body
  unfold handle
  rw [h.route]
  exact withBody_of_ok hread hcheck _ b

/-- What a body asks for, from reading and checking it at once. -/
theorem exists_body_of_toOption {α : Type} {check : Json → Checked α} {a : α}
    (h : ((readBody r).toOption.bind fun v => (check v).toOption) = some a) :
    ∃ v, readBody r = .ok v ∧ check v = .ok a := by
  cases hread : readBody r with
  | error e =>
    rw [hread] at h
    cases h
  | ok v =>
    rw [hread] at h
    cases hcheck : check v with
    | error es =>
      simp [Except.toOption, hcheck] at h
    | ok a' =>
      simp only [Except.toOption, Option.bind_some, hcheck, Option.some.injEq] at h
      exact ⟨v, rfl, h ▸ hcheck⟩

/-! ## Replies -/

/-- The reply says what is wrong: in words, by its kind, and at which token if at one. -/
def Reply.Explains (reply : Reply) (status : Nat) : Prop :=
  ∃ (detail kind : String) (position : Option Int), reply =
    ⟨status, .json (.obj [("detail", .str detail), ("kind", .str kind),
      ("position", position.elim .null .int)]), none⟩

theorem Reply.Explains.status_eq {reply : Reply} {status : Nat} (h : reply.Explains status) :
    reply.status = status := by
  obtain ⟨detail, kind, position, rfl⟩ := h
  rfl

theorem ofFault_of_kind_none (h : f.kind? = none) : Reply.ofFault f = .crash f := by
  rw [Reply.ofFault, h]

/-- The words for a fault can be written, and they can be sent if they are a text. -/
theorem ofFault_of_kind {kind : String} (h : f.kind? = some kind) :
    Reply.ofFault f = if f.wording.text?.isSome then ⟨f.status, .json (faultBody kind f), none⟩
      else .crash .unsendable := by
  have hwritable : (faultBody kind f).isWritable = true := by
    cases hposition : f.position? <;>
      simp [faultBody, hposition, Json.isWritable, Json.all, Json.allFields]
  have hsendable : (faultBody kind f).isSendable = f.wording.text?.isSome := by
    cases hposition : f.position? <;>
      simp [faultBody, hposition, Json.isSendable, Json.all, Json.allFields]
  simp only [Reply.ofFault, h, Reply.send, hwritable, hsendable]
  cases f.wording.text?.isSome <;> rfl

/-- The reply for a fault that has a kind, in full. -/
theorem ofFault_eq_of_kind {kind : String} (h : f.kind? = some kind)
    (hwording : f.wording = .ofString f.message) :
    Reply.ofFault f = ⟨f.status, .json (.obj [("detail", .str f.message), ("kind", .str kind),
      ("position", f.position?.elim .null .int)]), none⟩ := by
  rw [ofFault_of_kind h, faultBody, hwording, RawText.text?_ofString]
  cases f.position? <;> rfl

/-- A fault that has a kind and words that are no text cannot be told. -/
theorem ofFault_of_garbled {kind : String} (h : f.kind? = some kind)
    (hwording : f.wording.text? = none) : Reply.ofFault f = .crash .unsendable := by
  rw [ofFault_of_kind h, hwording]
  rfl

/-- A fault that has a kind is explained, if its words are a text. -/
theorem explains_ofFault {kind : String} (h : f.kind? = some kind)
    (hwording : f.wording = .ofString f.message) : (Reply.ofFault f).Explains f.status :=
  ⟨f.message, kind, f.position?, ofFault_eq_of_kind h hwording⟩

theorem not_explains_crash (fault : Fault) (status : Nat) :
    ¬ (Reply.crash fault).Explains status := by
  rintro ⟨detail, kind, position, h⟩
  cases h

/-- A fault that is explained has a kind, and its words are a text. -/
theorem Reply.Explains.of_ofFault {status : Nat} (h : (Reply.ofFault f).Explains status) :
    ∃ kind, f.kind? = some kind ∧ f.wording = .ofString f.message ∧ f.status = status := by
  cases hkind : f.kind? with
  | none =>
    rw [ofFault_of_kind_none hkind] at h
    exact absurd h (not_explains_crash _ _)
  | some kind =>
    cases hwording : f.wording.text? with
    | none =>
      rw [ofFault_of_garbled hkind hwording] at h
      exact absurd h (not_explains_crash _ _)
    | some text =>
      have hmessage := Fault.wording_eq_of_text hwording
      refine ⟨kind, rfl, hmessage, ?_⟩
      rw [← h.status_eq, ofFault_eq_of_kind hkind hmessage]

/-- No fault is answered as if all was well. -/
theorem status_ofFault_ne (f : Fault) : (Reply.ofFault f).status ≠ 200 := by
  have hfault : f.status ≠ 200 := by
    cases f <;> exact ne_of_beq_false rfl
  cases hkind : f.kind? with
  | none =>
    rw [ofFault_of_kind_none hkind]
    exact ne_of_beq_false rfl
  | some kind =>
    rw [ofFault_of_kind hkind]
    split
    · exact hfault
    · exact ne_of_beq_false rfl

theorem failedReply_fst (path : String) (f : Fault) (b : Bench) :
    (failedReply path f b).1 = Reply.ofFault f := by
  rw [failedReply]
  split <;> rfl

/-- Faults of the caller are not told to the log. -/
theorem failedReply_of_lt (path : String) (b : Bench) (h : f.status < 500) :
    failedReply path f b = (Reply.ofFault f, b) := by
  simp [failedReply, Nat.not_le.mpr h]

/-- Faults without a kind are not told to the log either. -/
theorem failedReply_of_kind_none (path : String) (b : Bench) (h : f.kind? = none) :
    failedReply path f b = (.crash f, b) := by
  simp [failedReply, h, ofFault_of_kind_none h]

theorem compileReply_of_ok {p : Program} (h : Program.compileRaw tokens = .ok p) (path : String)
    (b : Bench) : (compileReply path tokens b).1 = ⟨200, .json (programJson p), none⟩ := by
  rw [compileReply, answer, Execution.run_compileRaw_of_ok h]

theorem compileReply_of_error (h : Program.compileRaw tokens = .error f) (path : String)
    (b : Bench) : compileReply path tokens b = failedReply path f b := by
  rw [compileReply, answer, Execution.run_compileRaw_of_error h]

/-- The compiler's reply has the status of success for programs only. -/
theorem status_compileReply_iff (path : String) (b : Bench) :
    (compileReply path tokens b).1.status = 200 ↔ ∃ p, Program.compileRaw tokens = .ok p := by
  cases h : Program.compileRaw tokens with
  | ok p => simp [compileReply_of_ok h]
  | error f =>
    rw [compileReply_of_error h, failedReply_fst]
    simp [status_ofFault_ne f]

/-! ## Agreement -/

/-- A program that is refused is refused before anything is done with it. -/
theorem run_runWork_of_uncompiled [Engine] {inputs : Option (Int × Int)} {pair : Int × Int}
    (hcompile : Program.compileRaw tokens = .error f)
    (hinputs : inputsOf s ⟨tokens, inputs⟩ = .ok pair) (b : Bench) :
    (runWork s ⟨tokens, inputs⟩).run.run b = (.error f, b) := by
  have hrun := Execution.run_runRaw_of_uncompiled hcompile s true pair b
  have hpair : (Work.ofExcept (inputsOf s ⟨tokens, inputs⟩)).run.run b = (.ok pair, b) := by
    rw [hinputs, Work.run_ofExcept]
  rw [runWork, Work.run_bind_of_ok hpair]
  exact Work.run_bind_of_error hrun _

/-- **The route that runs programs refuses a program as the compiler does.** -/
theorem runReply_of_uncompiled [Engine] {inputs : Option (Int × Int)} {pair : Int × Int}
    (hcompile : Program.compileRaw tokens = .error f)
    (hinputs : inputsOf s ⟨tokens, inputs⟩ = .ok pair) (path : String) (b : Bench) :
    runReply s path ⟨tokens, inputs⟩ b = failedReply path f b := by
  rw [runReply, answer, run_runWork_of_uncompiled hcompile hinputs]

/-- **Both routes refuse a program in the same words.** Let one request ask to compile some tokens
and another one to run them on inputs that are there. If the first one is told what is wrong with
the program, then the second one gets the identical reply, and the bench stays what it was. If the
second one gets a result, then the first one gets a program. -/
theorem routes_agree_on_refusal [Engine] {toCompile toRun : Request} {inputs : Option (Int × Int)}
    {pair : Int × Int} (hcompile : AsksToCompile toCompile tokens)
    (hrun : AsksToRun toRun ⟨tokens, inputs⟩) (hinputs : inputsOf s ⟨tokens, inputs⟩ = .ok pair)
    (b b' : Bench) :
    ((handle s toCompile b).1.Explains 422 →
        handle s toRun b' = ((handle s toCompile b).1, b')) ∧
      ((handle s toRun b').1.status = 200 → (handle s toCompile b).1.status = 200) := by
  rw [hcompile.handle_eq, hrun.handle_eq, status_compileReply_iff]
  cases h : Program.compileRaw tokens with
  | ok p =>
    refine ⟨fun hexplains => ?_, fun _ => ⟨p, rfl⟩⟩
    have hstatus : 200 = 422 := by
      rw [← hexplains.status_eq, compileReply_of_ok h]
    exact absurd hstatus (by decide)
  | error f =>
    rw [compileReply_of_error h, runReply_of_uncompiled h hinputs, failedReply_fst,
      failedReply_fst]
    refine ⟨fun hexplains => ?_, fun hstatus => absurd hstatus (status_ofFault_ne f)⟩
    obtain ⟨-, -, -, hstatus⟩ := hexplains.of_ofFault
    exact failedReply_of_lt _ b' (by rw [hstatus]; decide)

/-- An operator that comes too early: a request to compile the program is told so, and so is one to
run it on the inputs that are set. -/
theorem routes_agree_on_refusal_early_operator :
    let request : String → Request := fun path =>
      ⟨"POST", path, some "application/json", some "\x7b\"tokens\": [\"p1\", \"add\"]\x7d"⟩
    let settings : Settings :=
      { assembler := "wat2wasm", timeout := .ofInt 30, artifactDir := "/work", libraryWasm := "",
        inputs := "665,1", logLevel := "WARNING", librarySource := .bundled, temporary := "/tmp" }
    let s : Execution.Session := ⟨settings, .copying, Assembler.create settings [] "" none⟩
    let b : Bench := { files := { entries := [] }, namer := .counter Namer.defaultStem 1 }
    AsksToCompile (request "/programs/compile") ["p1", "add"] ∧
      AsksToRun (request "/programs/run") ⟨["p1", "add"], none⟩ ∧
      inputsOf s ⟨["p1", "add"], none⟩ = .ok (665, 1) ∧
      (handle s (request "/programs/compile") b).1.Explains 422 ∧
      handle s (request "/programs/run") b
        = ((handle s (request "/programs/compile") b).1, b) := by
  intro request settings s b
  have hcompile : AsksToCompile (request "/programs/compile") ["p1", "add"] :=
    ⟨by decide, exists_body_of_toOption (by decide +kernel)⟩
  have hrun : AsksToRun (request "/programs/run") ⟨["p1", "add"], none⟩ :=
    ⟨by decide, exists_body_of_toOption (by decide +kernel)⟩
  have hinputs : inputsOf s ⟨["p1", "add"], none⟩ = .ok (665, 1) := by decide
  have hexplains : (handle s (request "/programs/compile") b).1.Explains 422 := by
    have hfault : Program.compileRaw ["p1", "add"] = .error (.stackUnderflow 1 "add" 1) :=
      Program.compileRaw_map ["p1", "add"]
    rw [hcompile.handle_eq, compileReply_of_error hfault, failedReply_fst]
    exact explains_ofFault rfl rfl
  exact ⟨hcompile, hrun, hinputs, hexplains,
    (routes_agree_on_refusal hcompile hrun hinputs b b).1 hexplains⟩

end Service

/-! ## Literals that are too long -/

/-- Zeros in front of a row of digits do not count. -/
theorem Number.ofDigits_replicate_zero_append (n : Nat) (ds : List Nat) :
    ofDigits (List.replicate n 0 ++ ds) = ofDigits ds := by
  induction n with
  | zero => rfl
  | succ n ih => rw [List.replicate_succ, List.cons_append, ← ih]; rfl

namespace Program

/-- The tokens are read without a fault up to `token`, a literal with too many digits. -/
def MeetsLongLiteral (tokens : List RawText) (token : String) : Prop :=
  ∃ before after steps, tokens = before.map .ofString ++ .ofString token :: after ∧
    Reads 0 before steps ∧ Token.isLiteral token = true ∧ Number.maxDigits < token.toList.length

/-- The tokens are read without a fault up to `token`, which is no text. -/
def MeetsGarbled (tokens : List RawText) (token : RawText) : Prop :=
  ∃ before after steps, tokens = before.map .ofString ++ token :: after ∧
    Reads 0 before steps ∧ token.text? = none

/-- The faults that say what is wrong with a program. -/
inductive Refusal : Fault → Prop
  | invalid (index : Int) (text : String) : Refusal (.invalidToken index text)
  | garbled (index : Int) (token : RawText) : Refusal (.garbledToken index token)
  | underflow (index : Int) (token : String) (available : Int) :
      Refusal (.stackUnderflow index token available)
  | imbalance (depth : Int) : Refusal (.stackImbalance depth)

theorem classify_of_long {token : String} (hliteral : Token.isLiteral token = true)
    (hlong : Number.maxDigits < token.toList.length) (index : Int) :
    Token.classify token index = .error (.numeralTooLong token.toList.length) := by
  rw [Token.classify, Token.lookup_vocabulary_of_isLiteral hliteral]
  simp only [hliteral, if_true, Token.literal, gt_iff_lt, hlong]

/-- A literal that is too long is where the compiler stops. -/
theorem MeetsLongLiteral.compileRaw_eq {tokens : List RawText} {token : String}
    (h : MeetsLongLiteral tokens token) :
    compileRaw tokens = .error (.numeralTooLong token.toList.length) := by
  obtain ⟨before, after, steps, rfl, hreads, hliteral, hlong⟩ := h
  refine compileRaw_of_scan_error ?_
  rw [leadingTexts_append, leadingTexts, RawText.text?_ofString]
  refine hreads.scan_append_error ?_
  rw [step, classify_of_long hliteral hlong]
  rfl

/-- A token that is no text is where the compiler stops, too. -/
theorem MeetsGarbled.compileRaw_eq {tokens : List RawText} {token : RawText}
    (h : MeetsGarbled tokens token) :
    ∃ index, compileRaw tokens = .error (.garbledToken index token) := by
  obtain ⟨before, after, steps, rfl, hreads, hgarbled⟩ := h
  exact ⟨before.length, compileRaw_of_textsOf_error
    (textsOf_of_garbled ((scan_eq_ok_iff 0).mpr hreads) hgarbled after)⟩

/-- How the compiler ends on texts: with a program, with something wrong in it, or at a literal that
is too long. -/
theorem compile_ends (texts : List String) :
    (∃ p, compile texts = .ok p) ∨
      (∃ f, compile texts = .error f ∧ Refusal f ∧ f.wording = .ofString f.message) ∨
      ∃ before token after steps, texts = before ++ token :: after ∧ Reads 0 before steps ∧
        Token.isLiteral token = true ∧ Number.maxDigits < token.toList.length := by
  by_cases hfirst : ∃ i, FirstUnviable texts i
  · obtain ⟨i, hi⟩ := hfirst
    obtain ⟨token, f, hget, hfault, hall⟩ := hi.exists_fault
    have hcompile : compile texts = .error f := hall texts (List.take_prefix _ _)
    cases hfault with
    | invalid => exact .inr (.inl ⟨_, hcompile, .invalid i token, rfl⟩)
    | underflow available => exact .inr (.inl ⟨_, hcompile, .underflow i token available, rfl⟩)
    | tooLong hliteral hlong =>
      obtain ⟨steps, hreads⟩ := hi.exists_reads
      obtain ⟨hlt, rfl⟩ := List.getElem?_eq_some_iff.mp hget
      refine .inr (.inr ⟨texts.take i, _, texts.drop (i + 1), steps, ?_, hreads, hliteral, hlong⟩)
      rw [← List.drop_eq_getElem_cons hlt, List.take_append_drop]
  · obtain ⟨steps, hreads⟩ := exists_reads_of_forall_not_firstUnviable (not_exists.mp hfirst)
    have hcompile := compile_of_reads hreads
    split at hcompile
    · exact .inl ⟨_, hcompile⟩
    · exact .inr (.inl ⟨_, hcompile, .imbalance _, rfl⟩)

/-- **How the compiler ends**: with a program, with something wrong in it, at a literal that is too
long, or at a token that is no text. -/
theorem compileRaw_ends (tokens : List RawText) :
    (∃ p, compileRaw tokens = .ok p) ∨
      (∃ f, compileRaw tokens = .error f ∧ Refusal f ∧ f.wording = .ofString f.message) ∨
      (∃ token, MeetsLongLiteral tokens token) ∨ ∃ token, MeetsGarbled tokens token := by
  have hspec := leadingTexts_spec tokens
  rcases hleading : leadingTexts tokens with ⟨texts, _ | garbled⟩ <;> rw [hleading] at hspec
  · obtain rfl : tokens = texts.map .ofString := hspec
    rw [compileRaw_map]
    rcases compile_ends texts with hok | hrefused | ⟨before, token, after, steps, rfl, hlong⟩
    · exact .inl hok
    · exact .inr (.inl hrefused)
    · refine .inr (.inr (.inl ⟨token, before, after.map .ofString, steps, ?_, hlong⟩))
      rw [List.map_append, List.map_cons]
  · obtain ⟨rest, rfl, hgarbled⟩ := hspec
    cases hscan : scan 0 0 texts with
    | ok steps =>
      exact .inr (.inr (.inr ⟨garbled, texts, rest, steps, rfl, (scan_eq_ok_iff 0).mp hscan,
        hgarbled⟩))
    | error f =>
      have hcompile := compile_of_scan_error hscan
      have hraw : compileRaw (texts.map .ofString ++ garbled :: rest) = .error f := by
        refine compileRaw_of_scan_error ?_
        rw [leadingTexts_garbled texts hgarbled, hscan]
      rcases compile_ends texts with ⟨p, hp⟩ | ⟨g, hg, hrefusal⟩ |
        ⟨before, token, after, steps, rfl, hlong⟩
      · cases hp.symm.trans hcompile
      · obtain rfl := Except.error.inj (hg.symm.trans hcompile)
        exact .inr (.inl ⟨g, hraw, hrefusal⟩)
      · refine .inr (.inr (.inl ⟨token, before, after.map .ofString ++ garbled :: rest, steps, ?_,
          hlong⟩))
        rw [List.map_append, List.map_cons, List.append_assoc, List.cons_append]

/-- The compiler ends with a program or in words exactly when no literal that is too long is met. -/
theorem compileRaw_answers_iff (tokens : List RawText) :
    (∃ p, compileRaw tokens = .ok p) ∨ (∃ f, compileRaw tokens = .error f ∧ Refusal f) ↔
      ¬ ∃ token, MeetsLongLiteral tokens token := by
  constructor
  · rintro (⟨p, hp⟩ | ⟨f, hf, hrefusal⟩) ⟨token, hmeets⟩
    · cases hp.symm.trans hmeets.compileRaw_eq
    · obtain rfl := Except.error.inj (hf.symm.trans hmeets.compileRaw_eq)
      cases hrefusal
  · intro hnone
    rcases compileRaw_ends tokens with hok | ⟨f, hf, hrefusal, -⟩ | hlong | ⟨token, hgarbled⟩
    · exact .inl hok
    · exact .inr ⟨f, hf, hrefusal⟩
    · exact absurd hlong hnone
    · obtain ⟨index, hf⟩ := hgarbled.compileRaw_eq
      exact .inr ⟨_, hf, .garbled index token⟩

theorem meetsLongLiteral_singleton {token : String} (hliteral : Token.isLiteral token = true)
    (hlong : Number.maxDigits < token.toList.length) : MeetsLongLiteral [token] token :=
  ⟨[], [], [], rfl, .nil 0, hliteral, hlong⟩

/-- The text of the program that is one literal. -/
theorem text_of_literal (l : Literal) : ∃ p, compile [l.text] = .ok p ∧
    p.text = ModuleText.unlines ["(module", ModuleText.header,
      "    i32.const " ++ Number.nat (Token.literalValue l.text % Word.modulus) ++ ")",
      "  (export \"compute\" (func $compute))", ")"] := by
  have hreads : Reads 0 [l.text] [(l.instr, 1)] := .cons (.literal l) (Int.le_refl 0) (.nil _)
  have hresidue : Word.residue (Token.literalValue l.text : Int)
      = Token.literalValue l.text % Word.modulus := by
    rw [Word.residue, ← Int.natCast_emod, Int.toNat_natCast]
  refine ⟨_, compile_of_reads hreads, ?_⟩
  rw [← hresidue]
  rfl

end Program

namespace Service

variable {tokens : List RawText}

/-- What is wrong with a program is the caller's fault, and it is explained if this can be told. -/
theorem explains_of_refusal {f : Fault} (h : Program.Refusal f)
    (hwording : f.wording = .ofString f.message) : (Reply.ofFault f).Explains 422 := by
  cases h with
  | invalid index text => exact explains_ofFault rfl hwording
  | garbled index token => exact explains_ofFault rfl hwording
  | underflow index token available => exact explains_ofFault rfl hwording
  | imbalance depth => exact explains_ofFault rfl hwording

/-- The service has no words for a literal that is too long. -/
theorem compileReply_of_long {token : String} (h : Program.MeetsLongLiteral tokens token)
    (path : String) (b : Bench) :
    compileReply path tokens b = (.crash (.numeralTooLong token.toList.length), b) := by
  rw [compileReply_of_error h.compileRaw_eq, failedReply_of_kind_none path b rfl]

/-- The service cannot send the words for a token that is no text. -/
theorem compileReply_of_garbled {token : RawText} (h : Program.MeetsGarbled tokens token)
    (path : String) (b : Bench) : compileReply path tokens b = (.crash .unsendable, b) := by
  obtain ⟨index, hfault⟩ := h.compileRaw_eq
  obtain ⟨-, -, -, -, -, hgarbled⟩ := h
  have hstatus : (Fault.garbledToken index token).status < 500 := show 422 < 500 by decide
  rw [compileReply_of_error hfault, failedReply_of_lt path b hstatus,
    ofFault_of_garbled rfl (Fault.wording_garbledToken index hgarbled)]

/-- The route gives a program or tells what is wrong exactly when neither a literal that is too long
nor a token that is no text is met. -/
theorem compileReply_answers_iff (path : String) (b : Bench) :
    (compileReply path tokens b).1.status = 200 ∨ (compileReply path tokens b).1.Explains 422 ↔
      (¬ ∃ token, Program.MeetsLongLiteral tokens token) ∧
        ¬ ∃ token, Program.MeetsGarbled tokens token := by
  have hcrash : ∀ {fault : Fault}, compileReply path tokens b = (.crash fault, b) →
      ¬ ((compileReply path tokens b).1.status = 200 ∨
        (compileReply path tokens b).1.Explains 422) := by
    rintro fault hreply (hstatus | hexplains)
    · rw [hreply] at hstatus
      exact absurd hstatus (ne_of_beq_false rfl)
    · rw [hreply] at hexplains
      exact not_explains_crash _ _ hexplains
  constructor
  · intro hanswer
    refine ⟨?_, ?_⟩
    · rintro ⟨token, hmeets⟩
      exact hcrash (compileReply_of_long hmeets path b) hanswer
    · rintro ⟨token, hmeets⟩
      exact hcrash (compileReply_of_garbled hmeets path b) hanswer
  · rintro ⟨hshort, hplain⟩
    rcases Program.compileRaw_ends tokens with hok | ⟨f, hf, hrefusal, hwording⟩ | hlong | hgarbled
    · exact .inl ((status_compileReply_iff path b).mpr hok)
    · rw [compileReply_of_error hf, failedReply_fst]
      exact .inr (explains_of_refusal hrefusal hwording)
    · exact absurd hlong hshort
    · exact absurd hgarbled hplain

/-- **A list of strings is a program or is refused in words, unless it meets a literal that is too
long or a token that is no text.** The compiler ends with a program or with one of its three faults
exactly when no literal that is too long is met. The route answers with the program or tells what is
wrong exactly when, besides, no token that is no text is met. When a literal is too long, the
compiler says only that, and the service fails. A token that is no text is refused by the compiler,
and the service fails because it cannot repeat it. A literal of any length that is not too long is
compiled to the constant that it leaves modulo `2 ^ 32`. -/
theorem compile_refuses_in_words_iff [Engine] (tokens : List RawText) :
    ((∃ p, Program.compileRaw tokens = .ok p) ∨
        (∃ f, Program.compileRaw tokens = .error f ∧ Program.Refusal f) ↔
      ¬ ∃ token, Program.MeetsLongLiteral tokens token) ∧
    (∀ s r b, AsksToCompile r tokens →
      ((handle s r b).1.status = 200 ∨ (handle s r b).1.Explains 422 ↔
        (¬ ∃ token, Program.MeetsLongLiteral tokens token) ∧
          ¬ ∃ token, Program.MeetsGarbled tokens token)) ∧
    (∀ token, Program.MeetsLongLiteral tokens token →
      Program.compileRaw tokens = .error (.numeralTooLong token.toList.length) ∧
      ∀ s r b, AsksToCompile r tokens →
        handle s r b = (.crash (.numeralTooLong token.toList.length), b)) ∧
    (∀ token, Program.MeetsGarbled tokens token →
      (∃ index, Program.compileRaw tokens = .error (.garbledToken index token)) ∧
      ∀ s r b, AsksToCompile r tokens → handle s r b = (.crash .unsendable, b)) ∧
    ∀ token : String, tokens = [RawText.ofString token] → Token.isLiteral token = true →
      (token.toList.length ≤ Number.maxDigits ↔
        ∃ p, Program.compileRaw tokens = .ok p ∧
          p.text = ModuleText.unlines ["(module", ModuleText.header,
            "    i32.const " ++ Number.nat (Token.literalValue token % Word.modulus) ++ ")",
            "  (export \"compute\" (func $compute))", ")"]) := by
  refine ⟨Program.compileRaw_answers_iff tokens, ?_, ?_, ?_, ?_⟩
  · intro s r b hasks
    rw [hasks.handle_eq, compileReply_answers_iff]
  · intro token hmeets
    refine ⟨hmeets.compileRaw_eq, fun s r b hasks => ?_⟩
    rw [hasks.handle_eq, compileReply_of_long hmeets]
  · intro token hmeets
    refine ⟨hmeets.compileRaw_eq, fun s r b hasks => ?_⟩
    rw [hasks.handle_eq, compileReply_of_garbled hmeets]
  · rintro token rfl hliteral
    have hraw : Program.compileRaw [RawText.ofString token] = Program.compile [token] :=
      Program.compileRaw_map [token]
    refine ⟨fun hshort => hraw ▸ Program.text_of_literal ⟨token, hliteral, hshort⟩, ?_⟩
    rintro ⟨p, hp, -⟩
    refine Nat.not_lt.mp fun hlong => ?_
    have hmeets := Program.meetsLongLiteral_singleton hliteral hlong
    cases hp.symm.trans hmeets.compileRaw_eq

/-- A program that leaves two values meets no literal that is too long, and the route says what is
wrong with it. One that begins with half of a pair is refused by the compiler, and the route
fails. -/
theorem compile_refuses_in_words_iff_two_values :
    let request : String → Request := fun body =>
      ⟨"POST", "/programs/compile", some "application/json", some body⟩
    let plain := request "\x7b\"tokens\": [\"p1\", \"007\"]\x7d"
    let garbled := request "\x7b\"tokens\": [\"\\ud800\"]\x7d"
    AsksToCompile plain ["p1", "007"] ∧ (∀ s b, (handle s plain b).1.Explains 422) ∧
      AsksToCompile garbled [⟨[.half 0]⟩] ∧
      Program.MeetsGarbled [⟨[.half 0]⟩] ⟨[.half 0]⟩ ∧
      ∀ s b, handle s garbled b = (.crash .unsendable, b) := by
  intro request plain garbled
  have hasks : AsksToCompile plain ["p1", "007"] :=
    ⟨by decide, exists_body_of_toOption (by decide +kernel)⟩
  have hasks' : AsksToCompile garbled [⟨[.half 0]⟩] :=
    ⟨by decide, exists_body_of_toOption (by decide +kernel)⟩
  have hmeets : Program.MeetsGarbled [⟨[.half 0]⟩] ⟨[.half 0]⟩ := ⟨[], [], [], rfl, .nil 0, rfl⟩
  have hfault : Program.compileRaw ["p1", "007"] = .error (.stackImbalance 2) :=
    Program.compileRaw_map ["p1", "007"]
  refine ⟨hasks, fun s b => ?_, hasks', hmeets, fun s b => ?_⟩
  · have hplain : ¬ ∃ token, Program.MeetsGarbled ["p1", "007"] token := by
      rintro ⟨token, hgarbled⟩
      obtain ⟨index, hother⟩ := hgarbled.compileRaw_eq
      cases hfault.symm.trans hother
    obtain ⟨hends, hanswers, -⟩ := compile_refuses_in_words_iff ["p1", "007"]
    have hshort := hends.mp (.inr ⟨_, hfault, .imbalance 2⟩)
    rcases (hanswers s plain b hasks).mpr ⟨hshort, hplain⟩ with hstatus | hexplains
    · rw [hasks.handle_eq, status_compileReply_iff] at hstatus
      obtain ⟨p, hp⟩ := hstatus
      cases hp.symm.trans hfault
    · exact hexplains
  · obtain ⟨-, -, -, hfails, -⟩ := compile_refuses_in_words_iff [⟨[.half 0]⟩]
    exact (hfails _ hmeets).2 s garbled b hasks'

/-- The number seven with zeros in front of it. -/
def paddedSeven (zeros : Nat) : String := String.ofList (List.replicate zeros '0' ++ ['7'])

theorem toList_paddedSeven (zeros : Nat) :
    (paddedSeven zeros).toList = List.replicate zeros '0' ++ ['7'] := String.toList_ofList

theorem isLiteral_paddedSeven (zeros : Nat) : Token.isLiteral (paddedSeven zeros) = true := by
  simp [Token.isLiteral, toList_paddedSeven, Char.isDigit]

theorem literalValue_paddedSeven (zeros : Nat) : Token.literalValue (paddedSeven zeros) = 7 := by
  rw [Token.literalValue, toList_paddedSeven, List.map_append, List.map_replicate]
  exact Number.ofDigits_replicate_zero_append zeros [7]

/-- **A literal can be too long to be compiled**, however small its value: the compiler ends with a
fault that is none of its three, and the route fails. -/
theorem paddedSeven_not_compiled :
    Token.isLiteral (paddedSeven 4300) = true ∧ Token.literalValue (paddedSeven 4300) = 7 ∧
      Program.compileRaw [RawText.ofString (paddedSeven 4300)] = .error (.numeralTooLong 4301) ∧
      ¬ Program.Refusal (.numeralTooLong 4301) ∧
      ∀ path b, compileReply path [RawText.ofString (paddedSeven 4300)] b
        = (.crash (.numeralTooLong 4301), b) := by
  have hlength : (paddedSeven 4300).toList.length = 4301 := by
    rw [toList_paddedSeven, List.length_append, List.length_replicate, List.length_singleton]
  have hmeets : Program.MeetsLongLiteral [RawText.ofString (paddedSeven 4300)] (paddedSeven 4300) :=
    Program.meetsLongLiteral_singleton (isLiteral_paddedSeven _) (by rw [hlength]; decide)
  refine ⟨isLiteral_paddedSeven _, literalValue_paddedSeven _, hlength ▸ hmeets.compileRaw_eq,
    fun h => ?_, fun path b => ?_⟩
  · cases h
  · rw [compileReply_of_long hmeets, hlength]

end Service

end StackLang
