import Mathlib.Data.List.Forall2
import StackLang.Proofs.ReadBack

/-!
# Programs that share a text

A module text determines the imports and the instructions it was written for, up to what is lost
when a constant is written as its remainder. There is no other ambiguity: import lines, the line of
the function, body lines and the parenthesis that is glued to the last of them are told apart, for
any number of lines and numerals of any size.

Nothing is compared character by character here, since the reader of modules does the work. It
gives back the number of imports and the words of the body, and the words are read as one operation
per instruction; operations are equal if the instructions are, with constants reduced to words.

## Main definitions

* `Instr.AgreesWith` — instructions that are equal, or push the same word

## Main results

* `Wasm.ofInstr_eq_ofInstr_iff` — instructions that are the same operation
* `ModuleText.eq_of_unlines_linesOf_eq` — what a text determines
* `ModuleText.render_eq_render_iff` — when two programs have the same text
-/

namespace StackLang

/-! ## Instructions that agree -/

/-- Integers are the same word if they leave the same remainder. -/
theorem Word.ofInteger_eq_ofInteger_iff {m n : Int} :
    Word.ofInteger m = Word.ofInteger n ↔ m % (Word.modulus : Int) = n % (Word.modulus : Int) := by
  have hpos : (Word.modulus : Int) ≠ 0 := by decide
  have hm := Int.emod_nonneg m hpos
  have hn := Int.emod_nonneg n hpos
  rw [← BitVec.toNat_inj, toNat_ofInteger, toNat_ofInteger, residue, residue]
  omega

/-- The instructions are the same, where constants count modulo the number of words. -/
inductive Instr.AgreesWith : Instr → Instr → Prop
  | refl (i : Instr) : AgreesWith i i
  | push {m n : Int} (h : m % (Word.modulus : Int) = n % (Word.modulus : Int)) :
      AgreesWith (.push m) (.push n)

theorem Instr.AgreesWith.text_eq {i j : Instr} (h : i.AgreesWith j) : i.text = j.text := by
  cases h with
  | refl => rfl
  | push h => rw [text, text, Word.residue, Word.residue, h]

namespace Wasm

/-- **Instructions that are the same operation** agree, when there is one function to call. -/
theorem ofInstr_eq_ofInstr_iff {i j : Instr} (hi : i.IsLinkable) (hj : j.IsLinkable) :
    ofInstr (fun _ => 0) i = ofInstr (fun _ => 0) j ↔ i.AgreesWith j := by
  constructor
  · intro h
    cases i with
    | load p =>
      cases j with
      | load p' =>
        have hp : p = p' := by
          cases p <;> cases p' <;> cases h <;> rfl
        exact hp ▸ .refl _
      | _ => exact nomatch h
    | push m =>
      cases j with
      | push n => exact .push (Word.ofInteger_eq_ofInteger_iff.mp (Op.const.inj h))
      | _ => exact nomatch h
    | arith op =>
      cases j with
      | arith op' =>
        have hop : op = op' := by
          cases op <;> cases op' <;> cases h <;> rfl
        exact hop ▸ .refl _
      | _ => exact nomatch h
    | call name =>
      cases j with
      | call name' =>
        obtain rfl : name = "pow" := hi name rfl
        obtain rfl : name' = "pow" := hj name' rfl
        exact .refl _
      | _ => exact nomatch h
  · intro h
    cases h with
    | refl => rfl
    | push h => exact congrArg Op.const (Word.ofInteger_eq_ofInteger_iff.mpr h)

/-- The words of instructions, read with the power function as the only one to call. -/
theorem readBody?_words_power {instrs : List Instr} (h : ∀ i ∈ instrs, i.IsLinkable) :
    readBody? ⟨[some "pow"], [some "p1", some "p2"]⟩ (instrs.flatMap Instr.words) =
      some (instrs.map (ofInstr fun _ => 0)) := by
  apply readBody?_words
  intro i hi name hname
  obtain rfl : name = "pow" := h i hi name hname
  rfl

/-- The tree of a module says how many imports there are and what the words of the body are. -/
theorem moduleTree_inj {imports imports' : Nat} {words words' : List String}
    (h : moduleTree imports words = moduleTree imports' words') :
    imports = imports' ∧ words = words' := by
  have hfields := (List.cons.inj (Sexp.list.inj h)).2
  have hlength : imports = imports' := by
    simpa using congrArg List.length hfields
  subst hlength
  have hfunction : functionTree words = functionTree words' :=
    (List.cons.inj (List.append_cancel_left hfields)).1
  have hbody : words.map Sexp.word = words'.map Sexp.word := by
    simpa [functionTree] using hfunction
  refine ⟨rfl, Option.some.inj ?_⟩
  rw [← words?_map_word, hbody, words?_map_word]

end Wasm

/-! ## Texts -/

namespace ModuleText

variable {instrs instrs' : List Instr}

/-- **What a text determines**: the number of imports, and the instructions with their constants
reduced to words. -/
theorem eq_of_unlines_linesOf_eq {imports imports' : List String}
    (h : ∀ i ∈ instrs, i.IsLinkable) (h' : ∀ i ∈ instrs', i.IsLinkable)
    (htext : unlines (linesOf imports instrs) = unlines (linesOf imports' instrs')) :
    imports.length = imports'.length ∧
      instrs.map (Wasm.ofInstr fun _ => 0) = instrs'.map (Wasm.ofInstr fun _ => 0) := by
  have htrees := Wasm.trees?_linesOf imports h
  rw [htext, Wasm.trees?_linesOf imports' h'] at htrees
  obtain ⟨hlength, hwords⟩ :=
    Wasm.moduleTree_inj (List.singleton_inj.mp (Option.some.inj htrees)).symm
  refine ⟨hlength, Option.some.inj ?_⟩
  rw [← Wasm.readBody?_words_power h, hwords, Wasm.readBody?_words_power h']

theorem forall₂_agreesWith_of_map_eq (h : ∀ i ∈ instrs, i.IsLinkable)
    (h' : ∀ i ∈ instrs', i.IsLinkable)
    (hmap : instrs.map (Wasm.ofInstr fun _ => 0) = instrs'.map (Wasm.ofInstr fun _ => 0)) :
    List.Forall₂ Instr.AgreesWith instrs instrs' := by
  induction instrs generalizing instrs' with
  | nil =>
    obtain rfl : instrs' = [] := List.map_eq_nil_iff.mp hmap.symm
    exact .nil
  | cons i instrs ih =>
    cases instrs' with
    | nil => exact nomatch hmap
    | cons j instrs' =>
      obtain ⟨hhead, htail⟩ := List.cons.inj hmap
      have hi := h i List.mem_cons_self
      have hj := h' j List.mem_cons_self
      refine .cons ((Wasm.ofInstr_eq_ofInstr_iff hi hj).mp hhead) ?_
      exact ih (fun k hk => h k (List.mem_cons_of_mem i hk))
        (fun k hk => h' k (List.mem_cons_of_mem j hk)) htail

theorem map_instrLine_eq_of_forall₂ (h : List.Forall₂ Instr.AgreesWith instrs instrs') :
    instrs.map instrLine = instrs'.map instrLine := by
  induction h with
  | nil => rfl
  | cons hij _ ih => rw [List.map_cons, List.map_cons, ih, instrLine, instrLine, hij.text_eq]

/-- **When two programs have the same text.** Instructions that call no function but the power
function, and imports of nothing else, are always written down. Their texts are equal exactly if
the imports are equal and the instructions agree one by one, where constants count modulo the
number of words. -/
theorem render_eq_render_iff (imports imports' : List String) (instrs instrs' : List Instr)
    (himports : ∀ name ∈ imports, name = "pow") (himports' : ∀ name ∈ imports', name = "pow")
    (h : ∀ i ∈ instrs, i.IsLinkable) (h' : ∀ i ∈ instrs', i.IsLinkable) :
    (∃ text, render imports (instrs.map .instr) = .ok text) ∧
      (render imports (instrs.map .instr) = render imports' (instrs'.map .instr) ↔
        imports = imports' ∧ List.Forall₂ Instr.AgreesWith instrs instrs') := by
  refine ⟨⟨_, render_instrs himports instrs⟩, ?_⟩
  rw [render_instrs himports, render_instrs himports']
  constructor
  · intro htext
    obtain ⟨hlength, hmap⟩ := eq_of_unlines_linesOf_eq h h' (Except.ok.inj htext)
    refine ⟨?_, forall₂_agreesWith_of_map_eq h h' hmap⟩
    rw [List.eq_replicate_of_mem himports, List.eq_replicate_of_mem himports', hlength]
  · rintro ⟨rfl, hagree⟩
    rw [linesOf, linesOf, map_instrLine_eq_of_forall₂ hagree]

/-- Minus one and the greatest word share a text. A further import makes another text, and so does
a constant with one more digit. -/
theorem render_eq_render_iff_minus_one :
    let power (n : Int) : List Instr := [.load .p1, .push n, .call "pow"]
    render ["pow"] ((power (-1)).map .instr) = render ["pow"] ((power 4294967295).map .instr) ∧
      render ["pow"] ((power 1).map .instr) ≠ render ["pow", "pow"] ((power 1).map .instr) ∧
      render ["pow"] ((power 1).map .instr) ≠ render ["pow"] ((power 10).map .instr) := by
  intro power
  have hlinkable : ∀ n, ∀ i ∈ power n, i.IsLinkable := by
    simp [power, Instr.IsLinkable, Instr.callee?]
  have hone : ∀ name ∈ ["pow"], name = "pow" := fun _ hname => List.mem_singleton.mp hname
  have htwo : ∀ name ∈ ["pow", "pow"], name = "pow" := by
    simp
  refine ⟨?_, fun htext => ?_, fun htext => ?_⟩
  · refine (render_eq_render_iff _ _ _ _ hone hone (hlinkable _) (hlinkable _)).2.mpr ⟨rfl, ?_⟩
    exact .cons (.refl _) (.cons (.push rfl) (.cons (.refl _) .nil))
  · have himports := (render_eq_render_iff _ _ _ _ hone htwo (hlinkable _) (hlinkable _)).2.mp htext
    exact absurd himports.1 (by decide)
  · have hagree := (render_eq_render_iff _ _ _ _ hone hone (hlinkable _) (hlinkable _)).2.mp htext
    obtain ⟨-, _ | ⟨-, _ | ⟨hpush, -⟩⟩⟩ := hagree
    cases hpush with
    | push h => exact absurd h (by decide)

end ModuleText

end StackLang
