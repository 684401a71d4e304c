import StackLang.Proofs.RunProgram

/-!
# Raw tokens

Tokens that come from outside are raw texts. As long as all of them are texts, this makes no
difference. Otherwise the texts in front of the first token that is none decide: if they are read
without a fault, then this token is at fault, and if not, then their fault counts.

## Main results

* `Program.textsOf_eq_ok_iff` — which raw tokens are texts
* `Program.textsOf_of_garbled`, `Program.compileRaw_of_scan_error` — the fault of those that are not
* `Execution.run_compileRaw_of_ok`, `Execution.run_compileRaw_of_error` — compiling raw tokens
* `Execution.run_runRaw_of_textsOf_ok`, `Execution.run_runRaw_of_uncompiled` — running them
-/

namespace StackLang

namespace Program

variable {tokens : List RawText} {texts : List String} {token : RawText} {f : Fault}

/-! ## The texts in front -/

theorem leadingTexts_append (texts : List String) (rest : List RawText) :
    leadingTexts (texts.map .ofString ++ rest) =
      (texts ++ (leadingTexts rest).1, (leadingTexts rest).2) := by
  induction texts with
  | nil => rfl
  | cons text texts ih =>
    rw [List.map_cons, List.cons_append, leadingTexts, RawText.text?_ofString, ih]
    rfl

theorem leadingTexts_map (texts : List String) :
    leadingTexts (texts.map .ofString) = (texts, none) := by
  have h := leadingTexts_append texts []
  rwa [List.append_nil, leadingTexts, List.append_nil] at h

theorem leadingTexts_garbled (texts : List String) (h : token.text? = none)
    (after : List RawText) :
    leadingTexts (texts.map .ofString ++ token :: after) = (texts, some token) := by
  rw [leadingTexts_append, leadingTexts, h, List.append_nil]

/-- All tokens are texts, or there is a first one that is none. -/
theorem leadingTexts_spec (tokens : List RawText) :
    match leadingTexts tokens with
    | (texts, none) => tokens = texts.map .ofString
    | (texts, some token) =>
      ∃ after, tokens = texts.map .ofString ++ token :: after ∧ token.text? = none := by
  induction tokens with
  | nil => rfl
  | cons token tokens ih =>
    rw [leadingTexts]
    cases htext : token.text? with
    | none => exact ⟨tokens, rfl, htext⟩
    | some text =>
      obtain rfl := RawText.text?_eq_some_iff.mp htext
      rcases hleading : leadingTexts tokens with ⟨texts, _ | garbled⟩ <;> rw [hleading] at ih
      · exact congrArg (RawText.ofString text :: ·) ih
      · obtain ⟨after, rfl, hgarbled⟩ := ih
        exact ⟨after, rfl, hgarbled⟩

/-! ## What becomes of raw tokens -/

theorem textsOf_map (texts : List String) : textsOf (texts.map .ofString) = .ok texts := by
  rw [textsOf, leadingTexts_map]

/-- **Which raw tokens are texts.** -/
theorem textsOf_eq_ok_iff : textsOf tokens = .ok texts ↔ tokens = texts.map .ofString := by
  refine ⟨fun h => ?_, fun h => h ▸ textsOf_map texts⟩
  have hspec := leadingTexts_spec tokens
  rw [textsOf] at h
  split at h
  · next heq =>
    rw [heq] at hspec
    rw [← Except.ok.inj h]
    exact hspec
  · split at h <;> cases h

/-- **A token that is no text** is at fault if the tokens before it are not. -/
theorem textsOf_of_garbled {steps : List (Instr × Int)} (hscan : scan 0 0 texts = .ok steps)
    (h : token.text? = none) (after : List RawText) :
    textsOf (texts.map .ofString ++ token :: after) =
      .error (.garbledToken texts.length token) := by
  rw [textsOf, leadingTexts_garbled texts h]
  dsimp only
  rw [hscan]

theorem compileRaw_of_textsOf_ok (h : textsOf tokens = .ok texts) :
    compileRaw tokens = compile texts := by
  rw [compileRaw, h]
  rfl

theorem compileRaw_of_textsOf_error (h : textsOf tokens = .error f) :
    compileRaw tokens = .error f := by
  rw [compileRaw, h]
  rfl

theorem compileRaw_map (texts : List String) :
    compileRaw (texts.map .ofString) = compile texts :=
  compileRaw_of_textsOf_ok (textsOf_map texts)

/-- **A fault of the texts in front** is the fault of all tokens. -/
theorem compileRaw_of_scan_error (h : scan 0 0 (leadingTexts tokens).1 = .error f) :
    compileRaw tokens = .error f := by
  rcases hleading : leadingTexts tokens with ⟨texts, _ | token⟩ <;> rw [hleading] at h
  · have htexts : textsOf tokens = .ok texts := by
      rw [textsOf, hleading]
    rw [compileRaw_of_textsOf_ok htexts, compile_of_scan_error h]
  · refine compileRaw_of_textsOf_error ?_
    rw [textsOf, hleading]
    dsimp only at h ⊢
    rw [h]

end Program

/-! ## Work on raw tokens -/

namespace Execution

variable {tokens : List RawText} {texts : List String} {f : Fault}

theorem run_compileRaw_of_ok {p : Program} (h : Program.compileRaw tokens = .ok p) (b : Bench) :
    (compileRaw tokens).run.run b = (.ok p, b.tell (.compiled p.instrs.length p.imports)) := by
  cases htexts : Program.textsOf tokens with
  | error f => cases h.symm.trans (Program.compileRaw_of_textsOf_error htexts)
  | ok texts =>
    rw [Program.compileRaw_of_textsOf_ok htexts] at h
    rw [compileRaw, htexts, Work.run_bind_of_ok (Work.run_ofExcept _ b), run_compile_of_ok h]

theorem run_compileRaw_of_error (h : Program.compileRaw tokens = .error f) (b : Bench) :
    (compileRaw tokens).run.run b = (.error f, b) := by
  cases htexts : Program.textsOf tokens with
  | error g =>
    obtain rfl := Except.error.inj (h.symm.trans (Program.compileRaw_of_textsOf_error htexts))
    rw [compileRaw, htexts, Work.run_bind_of_error (Work.run_ofExcept _ b)]
  | ok texts =>
    rw [Program.compileRaw_of_textsOf_ok htexts] at h
    rw [compileRaw, htexts, Work.run_bind_of_ok (Work.run_ofExcept _ b), run_compile_of_error h]

variable [Engine]

theorem run_runRaw_of_textsOf_ok (h : Program.textsOf tokens = .ok texts) (s : Session)
    (cleanup : Bool) (inputs : Int × Int) (b : Bench) :
    (runRaw s cleanup tokens inputs).run.run b =
      (runProgram s cleanup texts inputs).run.run b := by
  rw [runRaw, h, Work.run_bind_of_ok (Work.run_ofExcept _ b)]

theorem run_runRaw_of_textsOf_error (h : Program.textsOf tokens = .error f) (s : Session)
    (cleanup : Bool) (inputs : Int × Int) (b : Bench) :
    (runRaw s cleanup tokens inputs).run.run b = (.error f, b) := by
  rw [runRaw, h, Work.run_bind_of_error (Work.run_ofExcept _ b)]

/-- Tokens that do not compile have no effect at all. -/
theorem run_runRaw_of_uncompiled (h : Program.compileRaw tokens = .error f) (s : Session)
    (cleanup : Bool) (inputs : Int × Int) (b : Bench) :
    (runRaw s cleanup tokens inputs).run.run b = (.error f, b) := by
  cases htexts : Program.textsOf tokens with
  | error g =>
    obtain rfl := Except.error.inj (h.symm.trans (Program.compileRaw_of_textsOf_error htexts))
    exact run_runRaw_of_textsOf_error htexts s cleanup inputs b
  | ok texts =>
    rw [Program.compileRaw_of_textsOf_ok htexts] at h
    rw [run_runRaw_of_textsOf_ok htexts, runProgram, importProgram, Work.run_bind_of_error]
    exact Work.run_bind_of_error (run_compile_of_error h b) _

end Execution

end StackLang
