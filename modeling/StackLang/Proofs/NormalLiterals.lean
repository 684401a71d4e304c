import Mathlib.Data.List.Basic
import Mathlib.Data.List.Induction
import StackLang.Proofs.Balance
import StackLang.Proofs.ClosedModule

/-!
# Literals in normal form

A literal may begin with zeros and stand for a number of any size. What is written down for it is
the numeral of a word, without zeros in front. Since a word is all that a literal can give to a
program, its digits may as well be read with arithmetic of words: to wrap around at every digit is
to wrap around once at the end.

The numeral that is written down is a literal again, with the same word and the same numeral. So the
literals of a program can be replaced by these numerals. Nothing changes but the tokens and the
constants before they are reduced, and to replace them once more changes nothing at all.

## Main definitions

* `Token.wrappedValue` — the word of a literal, digit by digit
* `Token.IsNumeral` — numerals without zeros in front
* `Token.normal` — a literal as it is written down

## Main results

* `Token.wrappedValue_eq` — wrapping around at every digit, or once
* `Token.isNumeral_iff` — a number has one numeral
* `Program.Reads.normal` — what is read when literals are replaced
* `Program.literals_normalise` — how literals are written down, and replacing them
-/

namespace StackLang

namespace Number

/-! ## Numerals -/

theorem head?_natChars {n : Nat} (h : 0 < n) : (natChars n).head? ≠ some '0' := by
  induction n using Nat.strongRecOn with
  | ind n ih =>
    rw [natChars]
    by_cases hlt : n < 10
    · rw [Nat.toDigits_of_lt_base hlt, List.head?_cons, ne_eq, Option.some.injEq,
        Nat.digitChar_eq_zero]
      omega
    · rw [Nat.toDigits_of_base_le (by decide) (by omega),
        List.head?_append_of_ne_nil _ Nat.toDigits_ne_nil]
      exact ih (n / 10) (by omega) (by omega)

theorem asciiDigit_lt {c : Char} (h : c.isDigit = true) : asciiDigit c < 10 := by
  have hrange := toNat_of_isDigit h
  rw [asciiDigit]
  omega

theorem natChars_asciiDigit {c : Char} (h : c.isDigit = true) : natChars (asciiDigit c) = [c] := by
  have hrange := toNat_of_isDigit h
  have hlt := asciiDigit_lt h
  have hchar : (asciiDigit c).digitChar = c := by
    rw [← Char.toNat_inj, Nat.toNat_digitChar_of_lt_ten hlt, asciiDigit]
    omega
  rw [natChars, Nat.toDigits_of_lt_base hlt, hchar]

/-- **Digits are the numeral of their value**, unless there is a zero in front that does not stand
alone. -/
theorem natChars_ofDigits {cs : List Char} (hdigits : ∀ c ∈ cs, c.isDigit = true) (hne : cs ≠ [])
    (hzero : cs.head? = some '0' → cs = ['0']) : natChars (ofDigits (cs.map asciiDigit)) = cs := by
  induction cs using List.reverseRecOn with
  | nil => exact absurd rfl hne
  | append_singleton cs c ih =>
    have hc : c.isDigit = true := hdigits c (by simp)
    rw [List.map_append, List.map_singleton, ofDigits_concat]
    by_cases hcs : cs = []
    · subst hcs
      rw [List.map_nil, ofDigits_nil, Nat.mul_zero, Nat.zero_add, List.nil_append]
      exact natChars_asciiDigit hc
    · have hhead : cs.head? ≠ some '0' := by
        intro h
        have halone := hzero (by rw [List.head?_append_of_ne_nil _ hcs, h])
        simp [List.append_eq_cons_iff, hcs] at halone
      have hfront : natChars (ofDigits (cs.map asciiDigit)) = cs :=
        ih (fun d hd => hdigits d (List.mem_append_left [c] hd)) hcs fun h => absurd h hhead
      have hpos : 0 < ofDigits (cs.map asciiDigit) := by
        by_contra hnone
        rw [Nat.eq_zero_of_not_pos hnone] at hfront
        exact hhead (by rw [← hfront]; rfl)
      have happend := Nat.toDigits_append_toDigits (b := 10) (by decide) hpos (asciiDigit_lt hc)
      rw [natChars, ← happend, ← natChars, ← natChars, hfront, natChars_asciiDigit hc]

end Number

namespace Token

/-- The text is a numeral of the number: it has digits only, and a zero in front only if this is all
of it. -/
structure IsNumeral (text : String) (n : Nat) : Prop where
  isLiteral : isLiteral text = true
  head? : text.toList.head? = some '0' → text = "0"
  value : literalValue text = n

theorem isLiteral_iff {text : String} :
    isLiteral text = true ↔ text.toList ≠ [] ∧ ∀ c ∈ text.toList, c.isDigit = true := by
  simp [isLiteral]

theorem isLiteral_nat (n : Nat) : isLiteral (Number.nat n) = true := by
  rw [isLiteral_iff, Number.nat, String.toList_ofList]
  exact ⟨Number.natChars_ne_nil n, fun c hc => Number.isDigit_of_mem_natChars hc⟩

theorem literalValue_nat (n : Nat) : literalValue (Number.nat n) = n := by
  rw [literalValue, Number.nat, String.toList_ofList, Number.ofDigits_natChars]

/-- **A number has one numeral.** -/
theorem isNumeral_iff {text : String} {n : Nat} : IsNumeral text n ↔ text = Number.nat n := by
  constructor
  · rintro ⟨hliteral, hhead, rfl⟩
    obtain ⟨hne, hdigits⟩ := isLiteral_iff.mp hliteral
    have hchars : Number.natChars (literalValue text) = text.toList := by
      refine Number.natChars_ofDigits hdigits hne fun h => ?_
      rw [hhead h]
      rfl
    rw [Number.nat, hchars, String.ofList_toList]
  · rintro rfl
    refine ⟨isLiteral_nat n, fun h => ?_, literalValue_nat n⟩
    rw [Number.nat, String.toList_ofList] at h
    have hzero : n = 0 := by
      by_contra hne
      exact Number.head?_natChars (Nat.pos_of_ne_zero hne) h
    rw [hzero]
    rfl

/-! ## The words of literals -/

/-- The word of a literal, with arithmetic that wraps around at every digit. -/
def wrappedValue (token : String) : Nat :=
  token.toList.foldl (fun n c => (10 * n + Number.asciiDigit c) % Word.modulus) 0

/-- The fold with wrap-around keeps the remainder of the fold without. -/
theorem foldl_wrapped (cs : List Char) (n : Nat) :
    cs.foldl (fun n c => (10 * n + Number.asciiDigit c) % Word.modulus) (n % Word.modulus) =
      cs.foldl (fun n c => 10 * n + Number.asciiDigit c) n % Word.modulus := by
  induction cs generalizing n with
  | nil => rfl
  | cons c cs ih =>
    have hstep : (10 * (n % Word.modulus) + Number.asciiDigit c) % Word.modulus =
        (10 * n + Number.asciiDigit c) % Word.modulus := by
      rw [Nat.add_mod, Nat.mul_mod_mod, ← Nat.add_mod]
    rw [List.foldl_cons, List.foldl_cons, hstep, ih]

/-- **To wrap around at every digit is to wrap around once**, at the end. -/
theorem wrappedValue_eq (token : String) :
    wrappedValue token = literalValue token % Word.modulus := by
  rw [wrappedValue, literalValue, Number.ofDigits, List.foldl_map, ← foldl_wrapped]
  rfl

theorem residue_literalValue (token : String) :
    Word.residue (literalValue token) = wrappedValue token := by
  rw [Word.residue_natCast, wrappedValue_eq]

theorem wrappedValue_lt (token : String) : wrappedValue token < Word.modulus := by
  rw [← residue_literalValue]
  exact Word.residue_lt _

/-! ## Normal tokens -/

/-- A literal becomes the numeral of its word, and other tokens stay as they are. -/
def normal (token : String) : String :=
  if isLiteral token then Number.nat (wrappedValue token) else token

theorem normal_of_isLiteral {token : String} (h : isLiteral token = true) :
    normal token = Number.nat (wrappedValue token) := if_pos h

theorem normal_of_not_isLiteral {token : String} (h : isLiteral token = false) :
    normal token = token := by
  rw [normal, h, if_neg Bool.false_ne_true]

/-- A numeral of a word has this word. -/
theorem wrappedValue_nat {n : Nat} (h : n < Word.modulus) : wrappedValue (Number.nat n) = n := by
  rw [wrappedValue_eq, literalValue_nat, Nat.mod_eq_of_lt h]

theorem normal_normal (token : String) : normal (normal token) = normal token := by
  cases h : isLiteral token with
  | false => rw [normal_of_not_isLiteral h, normal_of_not_isLiteral h]
  | true =>
    rw [normal_of_isLiteral h, normal_of_isLiteral (isLiteral_nat _),
      wrappedValue_nat (wrappedValue_lt token)]

end Token

/-- The instruction with its constant reduced to a word. -/
def Instr.reduced : Instr → Instr
  | .push n => .push (Word.residue n)
  | i => i

namespace Instr

theorem pops_reduced (i : Instr) : i.reduced.pops = i.pops := by
  cases i <;> rfl

theorem callee?_reduced (i : Instr) : i.reduced.callee? = i.callee? := by
  cases i <;> rfl

/-- A constant is written down in its reduced form anyway. -/
theorem text_reduced (i : Instr) : i.reduced.text = i.text := by
  cases i with
  | push n =>
    have htwice : Word.residue (Word.residue n) = Word.residue n := by
      rw [Word.residue_natCast, Nat.mod_eq_of_lt (Word.residue_lt n)]
    rw [reduced, text, text, htwice]
  | _ => rfl

end Instr

/-- The literal that is written down for a literal. It has at most ten digits. -/
def Literal.normal (l : Literal) : Literal where
  text := Number.nat (Token.wrappedValue l.text)
  isLiteral := Token.isLiteral_nat _
  isShort := by
    rw [Number.nat, String.toList_ofList]
    exact Nat.le_trans (Number.length_natChars_le (Token.wrappedValue_lt l.text)) (by decide)

theorem Literal.instr_normal (l : Literal) : l.normal.instr = l.instr.reduced := by
  rw [instr, instr, Instr.reduced, Token.residue_literalValue, normal, Token.literalValue_nat]

theorem Operator.isLiteral_word (op : Operator) : Token.isLiteral op.word = false := by
  rcases op with op | _
  · cases op <;> rfl
  · rfl

/-- What a normal token stands for. -/
theorem Token.Means.normal {token : String} {i : Instr} (h : Means token i) :
    Means (Token.normal token) i.reduced := by
  cases h with
  | param p =>
    rw [Token.normal_of_not_isLiteral (by cases p <;> rfl)]
    exact .param p
  | literal l =>
    rw [Token.normal_of_isLiteral l.isLiteral, ← l.instr_normal]
    exact .literal l.normal
  | operator op =>
    have hreduced : op.instr.reduced = op.instr := by cases op <;> rfl
    rw [Token.normal_of_not_isLiteral op.isLiteral_word, hreduced]
    exact .operator op

/-- The line of a literal. -/
theorem Token.Means.instrLine_eq {token : String} {i : Instr} (h : Means token i)
    (hliteral : isLiteral token = true) :
    ModuleText.instrLine i = "    i32.const " ++ Number.nat (wrappedValue token) := by
  cases h with
  | param p =>
    have hname : isLiteral p.name = false := by cases p <;> rfl
    cases hname.symm.trans hliteral
  | literal l =>
    rw [ModuleText.instrLine, Literal.instr, Instr.text, residue_literalValue,
      ← String.append_assoc]
    rfl
  | operator op => cases op.isLiteral_word.symm.trans hliteral

namespace ModuleText

/-! ## Lines of instructions -/

theorem getElem?_closeLast (lines : List String) (k : Nat) :
    (closeLast lines)[k]? =
      lines[k]?.map fun line => line ++ if k + 1 = lines.length then ")" else "" := by
  induction lines generalizing k with
  | nil => rfl
  | cons line lines ih =>
    cases lines with
    | nil => cases k <;> simp [closeLast]
    | cons line' lines =>
      cases k with
      | zero => simp [closeLast]
      | succ k => simpa [closeLast] using ih k

/-- The line of the instruction at place `k` stands `k` lines below that of the function. -/
theorem getElem?_linesIn {instrs : List Instr} (hlinkable : ∀ i ∈ instrs, i.IsLinkable)
    (imports : List String) {k : Nat} {i : Instr} (hk : instrs[k]? = some i) :
    (linesIn (unlines (linesOf imports instrs)))[imports.length + 2 + k]? =
      some (instrLine i ++ if k + 1 = instrs.length then ")" else "") := by
  have hne : instrs ≠ [] := List.ne_nil_of_mem (List.mem_of_getElem? hk)
  have hline : (closeLast (instrs.map instrLine))[k]? =
      some (instrLine i ++ if k + 1 = instrs.length then ")" else "") := by
    rw [getElem?_closeLast, List.getElem?_map, hk, List.length_map]
    rfl
  have hplace : imports.length + 2 + k =
      ("(module" :: imports.map fun _ => powerLine).length + (k + 1) := by
    simp
    omega
  rw [linesIn_unlines_linesOf hne hlinkable, hplace, List.getElem?_append_right (by omega),
    Nat.add_sub_cancel_left, List.getElem?_cons_succ, bodyLines, List.append_assoc,
    List.getElem?_append_left (List.getElem?_eq_some_iff.mp hline).1, hline]

end ModuleText

namespace Program

open ModuleText (linesIn)

/-! ## Programs with normal literals -/

/-- **Replaced literals are read** with their constants reduced, and at the same depths. -/
theorem Reads.normal {depth : Int} {tokens : List String} {steps : List (Instr × Int)}
    (h : Reads depth tokens steps) :
    Reads depth (tokens.map Token.normal) (steps.map fun s => (s.1.reduced, s.2)) := by
  induction h with
  | nil depth => exact .nil depth
  | @cons depth token i tokens steps hm hd _ ih =>
    have hpops : i.reduced.pops = i.pops := i.pops_reduced
    have hd' : (i.reduced.pops : Int) ≤ depth := by rwa [hpops]
    have hrest : Reads (depth - i.reduced.pops + i.reduced.pushes) (tokens.map Token.normal)
        (steps.map fun s => (s.1.reduced, s.2)) := by
      rw [hpops]
      exact ih
    have hread := Reads.cons hm.normal hd' hrest
    rwa [hpops] at hread

theorem map_reduced (steps : List (Instr × Int)) :
    (steps.map fun s => (s.1.reduced, s.2)).map (·.1) = (steps.map (·.1)).map Instr.reduced := by
  simp

/-- Reduced constants are no calls. -/
theorem calledNames_map_reduced (instrs : List Instr) :
    calledNames (instrs.map Instr.reduced) = calledNames instrs := by
  have hcallee : Instr.callee? ∘ Instr.reduced = Instr.callee? := funext Instr.callee?_reduced
  rw [calledNames, calledNames, List.filterMap_map, hcallee]

theorem linesOf_map_reduced (imports : List String) (instrs : List Instr) :
    ModuleText.linesOf imports (instrs.map Instr.reduced) = ModuleText.linesOf imports instrs := by
  have hline : ModuleText.instrLine ∘ Instr.reduced = ModuleText.instrLine := by
    funext i
    rw [Function.comp_apply, ModuleText.instrLine, ModuleText.instrLine, Instr.text_reduced]
  rw [ModuleText.linesOf, ModuleText.linesOf, List.map_map, hline]

theorem Reads.means_of_getElem? {depth : Int} {tokens : List String} {steps : List (Instr × Int)}
    (h : Reads depth tokens steps) {k : Nat} {token : String} (hk : tokens[k]? = some token) :
    ∃ i, (steps.map (·.1))[k]? = some i ∧ Token.Means token i := by
  induction h generalizing k with
  | nil depth => cases hk
  | cons hm _ _ ih =>
    cases k with
    | zero =>
      obtain rfl := Option.some.inj hk
      exact ⟨_, rfl, hm⟩
    | succ k => exact ih hk

/-- **How literals are written down.** In the text of a compiled program, a literal has a line of
its own, which pushes the numeral of a word. The word is found by reading the digits with arithmetic
that wraps around, and it has no other numeral.

Let every literal be replaced by that numeral. The tokens are then compiled as well, to the same
text with the same depths and imports, and to replace their literals once more changes nothing. -/
theorem literals_normalise {tokens : List String} {p : Program} (h : compile tokens = .ok p) :
    (∀ k token, tokens[k]? = some token → Token.isLiteral token = true →
        Token.wrappedValue token < Word.modulus ∧
          (∀ numeral, Token.IsNumeral numeral (Token.wrappedValue token) ↔
            numeral = Token.normal token) ∧
          (linesIn p.text)[p.imports.length + 2 + k]? =
            some ("    i32.const " ++ Token.normal token ++
              if k + 1 = tokens.length then ")" else "")) ∧
      (∃ q, compile (tokens.map Token.normal) = .ok q ∧ q.text = p.text ∧ q.depths = p.depths ∧
        q.imports = p.imports) ∧
      (tokens.map Token.normal).map Token.normal = tokens.map Token.normal := by
  obtain ⟨steps, hreads, hd, rfl⟩ := compile_eq_ok_iff.mp h
  refine ⟨fun k token hk hliteral => ?_, ?_, ?_⟩
  · rw [Token.normal_of_isLiteral hliteral]
    refine ⟨Token.wrappedValue_lt token, fun numeral => Token.isNumeral_iff, ?_⟩
    obtain ⟨i, hi, hmeans⟩ := hreads.means_of_getElem? hk
    have hlength : (steps.map (·.1)).length = tokens.length := by
      rw [List.length_map, hreads.length_eq]
    rw [← hmeans.instrLine_eq hliteral, ← hlength]
    exact ModuleText.getElem?_linesIn hreads.isLinkable _ hi
  · have hdepths : (steps.map fun s => (s.1.reduced, s.2)).map (·.2) = steps.map (·.2) := by
      simp
    refine ⟨_, compile_eq_ok_iff.mpr ⟨_, hreads.normal, ?_, rfl⟩, ?_, hdepths, ?_⟩
    · rw [endDepth, hdepths]
      exact hd
    · simp only [ofSteps, map_reduced, calledNames_map_reduced, linesOf_map_reduced]
    · simp only [ofSteps, map_reduced, calledNames_map_reduced]
  · rw [List.map_map]
    exact List.map_congr_left fun token _ => Token.normal_normal token

/-- Zeros in front, and a number that is too big by a whole round. -/
theorem literals_normalise_padded :
    ∃ p, compile ["004294967303", "p1", "00", "cpow", "add"] = .ok p ∧
      (linesIn p.text)[3]? = some "    i32.const 7" ∧
      (linesIn p.text)[5]? = some "    i32.const 0" ∧
      ∃ q, compile ["7", "p1", "0", "cpow", "add"] = .ok q ∧ q.text = p.text ∧
        q.depths = [1, 2, 3, 2, 1] ∧ q.imports = ["pow"] := by
  obtain ⟨p, hp, hdepths, himports⟩ : ∃ p,
      compile ["004294967303", "p1", "00", "cpow", "add"] = .ok p ∧ p.depths = [1, 2, 3, 2, 1] ∧
        p.imports = ["pow"] := ⟨_, rfl, rfl, rfl⟩
  have hseven : Token.normal "004294967303" = "7" := by decide
  have hzero : Token.normal "00" = "0" := by decide
  have hnormal : ["004294967303", "p1", "00", "cpow", "add"].map Token.normal =
      ["7", "p1", "0", "cpow", "add"] := by decide
  obtain ⟨hlines, ⟨q, hq, htext, hsame, hnames⟩, -⟩ := literals_normalise hp
  rw [hnormal] at hq
  refine ⟨p, hp, ?_, ?_, q, hq, htext, hsame.trans hdepths, hnames.trans himports⟩
  · have hline := (hlines 0 "004294967303" rfl (by decide)).2.2
    rw [himports, hseven] at hline
    exact hline
  · have hline := (hlines 2 "00" rfl (by decide)).2.2
    rw [himports, hzero] at hline
    exact hline

end Program

end StackLang
