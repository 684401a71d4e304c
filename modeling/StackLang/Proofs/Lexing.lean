import StackLang.Proofs.Numeral
import StackLang.Proofs.Postfix
import StackLang.Wasm.Sexp

/-!
# The tokens of a module text

What the reader of module texts sees when it is given a text that was written for a program. The
machine for tokens is first brought into the form of a single step, `Wasm.lexStep`; from there a
text is taken apart at its line breaks, and a line at its blanks.

A word goes on until something stands next to it that cannot belong to a word. So the lemmas about
words ask for such a `Boundary` in what follows, and the closing parenthesis that is glued to the
last line of a program is as good as the line break after the others.

## Main definitions

* `Instr.words` — the words on the line of an instruction
* `Wasm.moduleLexemes` — the tokens of a whole module

## Main results

* `Wasm.tokensFrom_append_newline` — the tokens of a line, and those of the rest
* `Wasm.tokensFrom_instrLine` — the line of an instruction has its words
* `Wasm.tokens_linesOf` — the tokens of a module text
-/

namespace StackLang

namespace Wasm

/-! ## Single steps -/

/-- One character: the tokens that it completes, and where the machine stands after it. -/
def lexStep : LexMode → Char → Option (List Lexeme × LexMode)
  | .semicolon, c => if c = ';' then some ([], .comment) else none
  | .comment, c => some ([], if c = '\n' then .blank else .comment)
  | .string chars, c =>
    if c = '"' then some ([.string (String.ofList chars.reverse)], .blank)
    else if c = '\\' then some ([], .escaped chars)
    else some ([], .string (c :: chars))
  | .escaped chars, c => some ([], .string (c :: chars))
  | .blank, c =>
    if isLexBlank c then some ([], .blank)
    else if c = '(' then some ([.opening], .blank)
    else if c = ')' then some ([.closing], .blank)
    else if c = '"' then some ([], .string [])
    else if c = ';' then some ([], .semicolon)
    else some ([], .word [c])
  | .word chars, c =>
    if isLexBlank c then some ([wordToken chars], .blank)
    else if c = '(' then some ([wordToken chars, .opening], .blank)
    else if c = ')' then some ([wordToken chars, .closing], .blank)
    else if c = ';' then some ([wordToken chars], .semicolon)
    else some ([], .word (c :: chars))

/-- The machine goes character by character. -/
theorem tokensFrom_cons (m : LexMode) (c : Char) (cs : List Char) :
    tokensFrom m (c :: cs) =
      (lexStep m c).bind fun r => (tokensFrom r.2 cs).map (r.1 ++ ·) := by
  have hnone : ∀ o : Option (List Lexeme), o.map ([] ++ ·) = o := by
    intro o
    cases o <;> rfl
  cases m with
  | blank =>
    simp only [tokensFrom, lexStep]
    repeat' split
    all_goals simp
  | word chars =>
    simp only [tokensFrom, lexStep]
    repeat' split
    all_goals simp
  | string chars =>
    simp only [tokensFrom, lexStep]
    repeat' split
    all_goals simp
  | escaped chars => exact (hnone _).symm
  | semicolon =>
    simp only [tokensFrom, lexStep]
    split
    · exact (hnone _).symm
    · rfl
  | comment =>
    simp only [tokensFrom, lexStep, Option.bind_some]
    split <;> exact (hnone _).symm

/-! ## Lines -/

/-- **Lines are cut one by one.** A line that is complete in itself has the same tokens in a longer
text, and the rest starts afresh after it. -/
theorem tokensFrom_append_newline {m : LexMode} {line rest : List Char} {ts : List Lexeme}
    (h : tokensFrom m line = some ts) :
    tokensFrom m (line ++ '\n' :: rest) = (tokensFrom .blank rest).map (ts ++ ·) := by
  induction line generalizing m ts with
  | nil =>
    rw [List.nil_append, tokensFrom_cons]
    cases m with
    | blank => obtain rfl := Option.some.inj h; rfl
    | word chars => obtain rfl := Option.some.inj h; rfl
    | comment => obtain rfl := Option.some.inj h; rfl
    | string chars => exact nomatch h
    | escaped chars => exact nomatch h
    | semicolon => exact nomatch h
  | cons c line ih =>
    rw [tokensFrom_cons] at h
    obtain ⟨r, hr, h⟩ := Option.bind_eq_some_iff.mp h
    obtain ⟨us, hus, rfl⟩ := Option.map_eq_some_iff.mp h
    rw [List.cons_append, tokensFrom_cons, hr, Option.bind_some, ih hus, Option.map_map]
    simp only [Function.comp_def, List.append_assoc]

/-! ## Words -/

/-- Whether a word ends before this character. -/
def endsWord (c : Char) : Bool := isLexBlank c || c = '(' || c = ')' || c = ';'

/-- The characters of plain words. -/
def isWordChar (c : Char) : Bool := !endsWord c && c ≠ '"'

/-- No word goes on into these characters. -/
def Boundary (rest : List Char) : Prop := ∀ c ∈ rest.head?, endsWord c = true

/-- A word without anything special in it. -/
structure PlainWord (w : String) : Prop where
  nonempty : w.toList ≠ []
  chars : ∀ c ∈ w.toList, isWordChar c = true

/-- A word that is written out is plain if its characters are. -/
theorem plainWord_ofList {c : Char} {cs : List Char} (h : (c :: cs).all isWordChar = true) :
    PlainWord (String.ofList (c :: cs)) := by
  constructor
  · rw [String.toList_ofList]
    exact List.cons_ne_nil c cs
  · rw [String.toList_ofList]
    exact List.all_eq_true.mp h

theorem PlainWord.name {w : String} (h : PlainWord w) : PlainWord ("$" ++ w) := by
  have hlist : ("$" ++ w).toList = '$' :: w.toList := by
    rw [String.toList_append]
    rfl
  constructor
  · rw [hlist]
    exact List.cons_ne_nil _ _
  · intro c hc
    rw [hlist] at hc
    rcases List.mem_cons.mp hc with rfl | hc
    · rfl
    · exact h.chars c hc

theorem tokensFrom_word_of_boundary {chars rest : List Char} (h : Boundary rest) :
    tokensFrom (.word chars) rest = (tokensFrom .blank rest).map (wordToken chars :: ·) := by
  cases rest with
  | nil => rfl
  | cons c rest =>
    have hc : endsWord c = true := h c rfl
    rw [tokensFrom_cons, tokensFrom_cons]
    simp only [endsWord, Bool.or_eq_true, decide_eq_true_eq] at hc
    rcases hc with ((hc | rfl) | rfl) | rfl
    · simp [lexStep, hc]
    · simp [lexStep, isLexBlank, Function.comp_def]
    · simp [lexStep, isLexBlank, Function.comp_def]
    · simp [lexStep, isLexBlank]

theorem lexStep_word_of_isWordChar {c : Char} (h : isWordChar c = true) (chars : List Char) :
    lexStep (.word chars) c = some ([], .word (c :: chars)) := by
  simp only [isWordChar, endsWord, Bool.and_eq_true, Bool.not_eq_true', Bool.or_eq_false_iff,
    decide_eq_false_iff_not, decide_eq_true_eq] at h
  obtain ⟨⟨⟨⟨hb, ho⟩, hc⟩, hs⟩, -⟩ := h
  simp [lexStep, hb, ho, hc, hs]

theorem lexStep_blank_of_isWordChar {c : Char} (h : isWordChar c = true) :
    lexStep .blank c = some ([], .word [c]) := by
  simp only [isWordChar, endsWord, Bool.and_eq_true, Bool.not_eq_true', Bool.or_eq_false_iff,
    decide_eq_false_iff_not, decide_eq_true_eq] at h
  obtain ⟨⟨⟨⟨hb, ho⟩, hc⟩, hs⟩, hq⟩ := h
  simp [lexStep, hb, ho, hc, hs, hq]

theorem tokensFrom_word_append {w chars rest : List Char} (hw : ∀ c ∈ w, isWordChar c = true) :
    tokensFrom (.word chars) (w ++ rest) = tokensFrom (.word (w.reverse ++ chars)) rest := by
  induction w generalizing chars with
  | nil => rfl
  | cons c w ih =>
    rw [List.cons_append, tokensFrom_cons, lexStep_word_of_isWordChar (hw c List.mem_cons_self),
      Option.bind_some, ih fun d hd => hw d (List.mem_cons_of_mem c hd)]
    simp

/-- **A plain word is one token.** -/
theorem PlainWord.tokensFrom {w : String} (h : PlainWord w) {rest : List Char}
    (hb : Boundary rest) :
    Wasm.tokensFrom .blank (w.toList ++ rest) =
      (Wasm.tokensFrom .blank rest).map (.word w :: ·) := by
  obtain ⟨c, cs, hw⟩ := List.exists_cons_of_ne_nil h.nonempty
  have hchars := h.chars
  rw [hw] at hchars
  have htoken : wordToken (cs.reverse ++ [c]) = .word w := by
    rw [wordToken, List.reverse_append, List.reverse_reverse, List.reverse_singleton,
      List.singleton_append, ← hw, String.ofList_toList]
  rw [hw, List.cons_append, tokensFrom_cons,
    lexStep_blank_of_isWordChar (hchars c List.mem_cons_self), Option.bind_some,
    tokensFrom_word_append fun d hd => hchars d (List.mem_cons_of_mem c hd),
    tokensFrom_word_of_boundary hb, htoken]
  simp [Function.comp_def]

/-- Words with a blank in front of each. -/
def spaced (ws : List String) : List Char := ws.flatMap fun w => ' ' :: w.toList

theorem boundary_spaced_append (ws : List String) {rest : List Char} (hb : Boundary rest) :
    Boundary (spaced ws ++ rest) := by
  cases ws with
  | nil => exact hb
  | cons w ws =>
    rintro c ⟨⟩
    rfl

theorem tokensFrom_spaced {ws : List String} (h : ∀ w ∈ ws, PlainWord w) {rest : List Char}
    (hb : Boundary rest) :
    tokensFrom .blank (spaced ws ++ rest) =
      (tokensFrom .blank rest).map (ws.map .word ++ ·) := by
  induction ws with
  | nil => simp [spaced]
  | cons w ws ih =>
    have hsplit : spaced (w :: ws) ++ rest = ' ' :: (w.toList ++ (spaced ws ++ rest)) := by
      simp [spaced]
    have hblank : ∀ cs, tokensFrom .blank (' ' :: cs) = tokensFrom .blank cs := fun _ => rfl
    rw [hsplit, hblank, (h w List.mem_cons_self).tokensFrom (boundary_spaced_append ws hb),
      ih fun v hv => h v (List.mem_cons_of_mem w hv)]
    simp [Function.comp_def]

end Wasm

/-! ## Instructions -/

/-- The words on the line of an instruction. -/
def Instr.words : Instr → List String
  | .load p => ["local.get", "$" ++ p.name]
  | .push n => ["i32.const", Number.nat (Word.residue n)]
  | .arith op => [op.mnemonic]
  | .call name => ["call", "$" ++ name]

namespace Wasm

theorem toList_instrLine (i : Instr) :
    (ModuleText.instrLine i).toList = [' ', ' ', ' '] ++ spaced i.words := by
  cases i with
  | load p => cases p <;> rfl
  | push n => simp [ModuleText.instrLine, Instr.text, Instr.words, spaced]
  | arith op => cases op <;> rfl
  | call name => simp [ModuleText.instrLine, Instr.text, Instr.words, spaced]

theorem plainWord_nat (n : Nat) : PlainWord (Number.nat n) := by
  constructor
  · rw [Number.nat, String.toList_ofList]
    exact Number.natChars_ne_nil n
  · intro c hc
    rw [Number.nat, String.toList_ofList] at hc
    have hdigit := Number.isDigit_of_mem_natChars hc
    have hne : ∀ d : Char, d.isDigit = false → c ≠ d := by
      rintro d hd rfl
      rw [hdigit] at hd
      exact Bool.noConfusion hd
    simp [isWordChar, endsWord, isLexBlank, hne ' ' rfl, hne '\n' rfl, hne '\t' rfl, hne '\r' rfl,
      hne '(' rfl, hne ')' rfl, hne ';' rfl, hne '"' rfl]

/-- An instruction of a program has plain words on its line. -/
theorem plainWord_of_mem_words {i : Instr} (h : i.IsLinkable) : ∀ w ∈ i.words, PlainWord w := by
  have hpair : ∀ {v w : String}, PlainWord v → PlainWord w → ∀ u ∈ [v, w], PlainWord u := by
    intro v w hv hw u hu
    rcases List.mem_cons.mp hu with rfl | hu
    · exact hv
    · exact List.mem_singleton.mp hu ▸ hw
  cases i with
  | load p =>
    have hname : PlainWord p.name := by cases p <;> exact plainWord_ofList rfl
    exact hpair (plainWord_ofList rfl) hname.name
  | push n => exact hpair (plainWord_ofList rfl) (plainWord_nat _)
  | arith op =>
    have hmnemonic : PlainWord op.mnemonic := by cases op <;> exact plainWord_ofList rfl
    exact fun w hw => List.mem_singleton.mp hw ▸ hmnemonic
  | call name =>
    obtain rfl : name = "pow" := h name rfl
    exact hpair (plainWord_ofList rfl) (PlainWord.name (plainWord_ofList rfl))

/-- **The line of an instruction has its words.** -/
theorem tokensFrom_instrLine {i : Instr} (h : i.IsLinkable) {rest : List Char}
    (hb : Boundary rest) :
    tokensFrom .blank ((ModuleText.instrLine i).toList ++ rest) =
      (tokensFrom .blank rest).map (i.words.map .word ++ ·) := by
  rw [toList_instrLine, List.append_assoc, ← tokensFrom_spaced (plainWord_of_mem_words h) hb]
  rfl

/-! ## Modules -/

/-- The characters of some lines. -/
def charsOf (lines : List String) : List Char := lines.flatMap fun line => line.toList ++ ['\n']

theorem charsOf_cons (line : String) (lines : List String) :
    charsOf (line :: lines) = line.toList ++ '\n' :: charsOf lines := by
  simp [charsOf]

theorem toList_unlines (lines : List String) :
    (ModuleText.unlines lines).toList = charsOf lines := by
  rw [ModuleText.unlines, String.toList_join, charsOf, List.flatMap_map]
  congr 1
  funext line
  rw [String.toList_append]
  rfl

/-- The tokens of a line that is written out. Its characters are taken from the literal, which is
much quicker than to have the line decoded. -/
theorem tokensFrom_ofList {cs : List Char} {ts : List Lexeme} (h : tokensFrom .blank cs = some ts) :
    tokensFrom .blank (String.ofList cs).toList = some ts := by
  rw [String.toList_ofList]
  exact h

/-- A line that is complete in itself, in front of others. -/
theorem tokensFrom_charsOf_cons {line : String} {ts : List Lexeme}
    (h : tokensFrom .blank line.toList = some ts) (lines : List String) :
    tokensFrom .blank (charsOf (line :: lines)) =
      (tokensFrom .blank (charsOf lines)).map (ts ++ ·) := by
  rw [charsOf_cons, tokensFrom_append_newline h]

theorem boundary_newline (rest : List Char) : Boundary ('\n' :: rest) := by
  rintro c ⟨⟩
  rfl

theorem boundary_closing (rest : List Char) : Boundary (')' :: rest) := by
  rintro c ⟨⟩
  rfl

/-- The lines of some instructions, with the parenthesis that closes the function after the last
one. -/
theorem tokensFrom_closeLast {i : Instr} {instrs : List Instr}
    (h : ∀ j ∈ i :: instrs, j.IsLinkable) (lines : List String) :
    tokensFrom .blank
        (charsOf (ModuleText.closeLast ((i :: instrs).map ModuleText.instrLine) ++ lines)) =
      (tokensFrom .blank (charsOf lines)).map
        (((i :: instrs).flatMap Instr.words).map .word ++ .closing :: ·) := by
  induction instrs generalizing i with
  | nil =>
    have hline : charsOf ([ModuleText.instrLine i ++ ")"] ++ lines) =
        (ModuleText.instrLine i).toList ++ ')' :: '\n' :: charsOf lines := by
      simp [charsOf]
    rw [List.map_singleton, ModuleText.closeLast, hline,
      tokensFrom_instrLine (h i List.mem_cons_self) (boundary_closing _)]
    simp [tokensFrom_cons, lexStep, isLexBlank, Function.comp_def]
  | cons j instrs ih =>
    have hrest := ih fun k hk => h k (List.mem_cons_of_mem i hk)
    have hblank : ∀ cs, tokensFrom .blank ('\n' :: cs) = tokensFrom .blank cs := fun _ => rfl
    have hlines : ModuleText.closeLast ((i :: j :: instrs).map ModuleText.instrLine) =
        ModuleText.instrLine i :: ModuleText.closeLast ((j :: instrs).map ModuleText.instrLine) :=
      rfl
    rw [hlines, List.cons_append, charsOf_cons,
      tokensFrom_instrLine (h i List.mem_cons_self) (boundary_newline _), hblank, hrest]
    simp [Function.comp_def]

/-- The tokens of the line that imports the power function. -/
def importLexemes : List Lexeme :=
  [.opening, .word "import", .string "stdlib", .string "pow", .opening, .word "func", .word "$pow",
    .opening, .word "param", .word "i32", .word "i32", .closing,
    .opening, .word "result", .word "i32", .closing, .closing, .closing]

/-- The tokens of the line that opens the function. -/
def headerLexemes : List Lexeme :=
  [.opening, .word "func", .word "$compute", .opening, .word "param", .word "$p1", .word "i32",
    .closing, .opening, .word "param", .word "$p2", .word "i32", .closing,
    .opening, .word "result", .word "i32", .closing]

/-- The tokens of the line that exports the function. -/
def exportLexemes : List Lexeme :=
  [.opening, .word "export", .string "compute", .opening, .word "func", .word "$compute",
    .closing, .closing]

/-- The tokens of a module with this many imports and these words in the body of its function. -/
def moduleLexemes (imports : Nat) (words : List String) : List Lexeme :=
  [.opening, .word "module"] ++ (List.replicate imports importLexemes).flatten ++ headerLexemes
    ++ words.map .word ++ [.closing] ++ exportLexemes ++ [.closing]

/-- The lines of the function, with and without instructions. -/
theorem tokensFrom_function {instrs : List Instr} (h : ∀ i ∈ instrs, i.IsLinkable)
    (lines : List String) :
    tokensFrom .blank (charsOf (ModuleText.closeLast
        (ModuleText.header :: instrs.map ModuleText.instrLine) ++ lines)) =
      (tokensFrom .blank (charsOf lines)).map
        (headerLexemes ++ (instrs.flatMap Instr.words).map .word ++ .closing :: ·) := by
  cases instrs with
  | nil =>
    have hline : tokensFrom .blank (ModuleText.header ++ ")").toList =
        some (headerLexemes ++ [.closing]) := rfl
    rw [List.map_nil, ModuleText.closeLast, List.singleton_append, tokensFrom_charsOf_cons hline]
    simp
  | cons i instrs =>
    have hline : tokensFrom .blank ModuleText.header.toList = some headerLexemes :=
      tokensFrom_ofList rfl
    have hlines : ModuleText.closeLast
          (ModuleText.header :: (i :: instrs).map ModuleText.instrLine) =
        ModuleText.header :: ModuleText.closeLast ((i :: instrs).map ModuleText.instrLine) := rfl
    rw [hlines, List.cons_append, tokensFrom_charsOf_cons hline, tokensFrom_closeLast h]
    simp [Function.comp_def]

/-- The lines of the imports. -/
theorem tokensFrom_imports (imports lines : List String) :
    tokensFrom .blank (charsOf (imports.map (fun _ => ModuleText.powerLine) ++ lines)) =
      (tokensFrom .blank (charsOf lines)).map
        ((List.replicate imports.length importLexemes).flatten ++ ·) := by
  have hline : tokensFrom .blank ModuleText.powerLine.toList = some importLexemes :=
    tokensFrom_ofList rfl
  induction imports with
  | nil => simp
  | cons name imports ih =>
    rw [List.map_cons, List.cons_append, tokensFrom_charsOf_cons hline, ih]
    simp [List.replicate_succ, Function.comp_def]

/-- **The tokens of a module text.** -/
theorem tokens_linesOf (imports : List String) {instrs : List Instr}
    (h : ∀ i ∈ instrs, i.IsLinkable) :
    tokens (ModuleText.unlines (ModuleText.linesOf imports instrs)).toList =
      some (moduleLexemes imports.length (instrs.flatMap Instr.words)) := by
  have hopening : tokensFrom .blank "(module".toList = some [.opening, .word "module"] :=
    tokensFrom_ofList rfl
  have hexport : tokensFrom .blank "  (export \"compute\" (func $compute))".toList =
      some exportLexemes := tokensFrom_ofList rfl
  have hclosing : tokensFrom .blank ")".toList = some [.closing] := tokensFrom_ofList rfl
  have hend : tokensFrom .blank (charsOf []) = some [] := rfl
  rw [tokens, toList_unlines, ModuleText.linesOf, List.cons_append, List.cons_append,
    List.append_assoc, tokensFrom_charsOf_cons hopening, tokensFrom_imports,
    tokensFrom_function h, tokensFrom_charsOf_cons hexport, tokensFrom_charsOf_cons hclosing, hend]
  simp [moduleLexemes]

end Wasm

end StackLang
