import Mathlib.Data.List.Forall2
import StackLang.Proofs.PowerLoop
import StackLang.Proofs.ReadBack
import StackLang.Wasm.PowerLibrary

/-!
# The text of the power library

The library is kept as a text. It is read line by line: each line is evaluated by itself, and the
tokens of the lines are put together by one lemma, so that nothing is ever evaluated on the text as
a whole. What comes of it is a module with the one function that `Wasm.powerFunc` is.

The first lines are comments. A reader of modules passes over them before it looks for the
parenthesis that a text has to begin with.

## Main definitions

* `Wasm.powerModule` — the module of the library

## Main results

* `Wasm.tokensFrom_charsOf` — lines that are each complete have their tokens one after the other
* `Wasm.drop_leadLength_comment` — a comment on the first line is passed over
* `Wasm.Module.ofBytes_powerLibrary` — the library is read as its module
-/

namespace StackLang

namespace Wasm

/-- Lines that are each complete have their tokens one after the other. -/
theorem tokensFrom_charsOf {lines : List String} {tss : List (List Lexeme)}
    (h : List.Forall₂ (fun line ts => tokensFrom .blank line.toList = some ts) lines tss) :
    tokensFrom .blank (charsOf lines) = some tss.flatten := by
  induction h with
  | nil => rfl
  | cons hline _ ih =>
    rw [tokensFrom_charsOf_cons hline, ih]
    rfl

/-- The words on the lines of the body of the library function, but for the last line. -/
def powerWords : List (List String) :=
  [["i32.const", "1"], ["local.set", "$result"], ["block", "$done"], ["loop", "$next"],
    ["local.get", "$exp"], ["i32.eqz"], ["br_if", "$done"],
    ["local.get", "$exp"], ["i32.const", "1"], ["i32.and"], ["if"],
    ["local.get", "$result"], ["local.get", "$base"], ["i32.mul"], ["local.set", "$result"],
    ["end"],
    ["local.get", "$base"], ["local.get", "$base"], ["i32.mul"], ["local.set", "$base"],
    ["local.get", "$exp"], ["i32.const", "1"], ["i32.shr_u"], ["local.set", "$exp"],
    ["br", "$next"], ["end"], ["end"]]

/-- The tokens on the lines in front of the body. -/
def powerHeader : List (List Lexeme) :=
  [[], [], [.opening, .word "module"],
    [.opening, .word "func", .word "$exponentiate",
      .opening, .word "param", .word "$base", .word "i32", .closing,
      .opening, .word "param", .word "$exp", .word "i32", .closing,
      .opening, .word "result", .word "i32", .closing],
    [.opening, .word "local", .word "$result", .word "i32", .closing]]

/-- The tokens on the lines from the end of the body on. -/
def powerFooter : List (List Lexeme) :=
  [[.word "local.get", .word "$result", .closing],
    [.opening, .word "export", .string "exponentiate",
      .opening, .word "func", .word "$exponentiate", .closing, .closing],
    [.closing]]

/-- The tokens on the lines of the library. -/
def powerLexemes : List (List Lexeme) :=
  powerHeader ++ powerWords.map (List.map .word) ++ powerFooter

/-- The lines of the library, one by one. -/
theorem forall₂_powerLexemes :
    List.Forall₂ (fun line ts => tokensFrom .blank line.toList = some ts)
      powerLibraryLines powerLexemes := by
  unfold powerLibraryLines
  change List.Forall₂ _ _ ([] :: _)
  repeat refine .cons (tokensFrom_ofList rfl) ?_
  exact .nil

/-- The tree of the library. -/
def powerTree : Sexp :=
  .list [.word "module",
    .list ([.word "func", .word "$exponentiate",
      .list [.word "param", .word "$base", .word "i32"],
      .list [.word "param", .word "$exp", .word "i32"], .list [.word "result", .word "i32"],
      .list [.word "local", .word "$result", .word "i32"]] ++
        (powerWords.flatten ++ ["local.get", "$result"]).map .word),
    .list [.word "export", .string "exponentiate", .list [.word "func", .word "$exponentiate"]]]

theorem gather_powerLexemes : gather [] [] powerLexemes.flatten = some [powerTree] := by
  have hheader : ∀ us, gather [] [] (powerHeader.flatten ++ us) =
      gather [[.word "module"], []]
        [.list [.word "local", .word "$result", .word "i32"],
          .list [.word "result", .word "i32"], .list [.word "param", .word "$exp", .word "i32"],
          .list [.word "param", .word "$base", .word "i32"], .word "$exponentiate",
          .word "func"] us := fun _ => rfl
  rw [powerLexemes, List.flatten_append, List.flatten_append, ← List.map_flatten,
    List.append_assoc, hheader, gather_words]
  rfl

/-- The module of the library. -/
def powerModule : Module where
  imports := []
  funcs := [powerFunc]
  exports := [("exponentiate", 0)]
  start := none

theorem Module.ofTrees?_powerTree : Module.ofTrees? [powerTree] = some powerModule := by
  rfl

theorem leadFrom_comment {cs : List Char} (h : '\n' ∉ cs) (rest : List Char) :
    leadFrom true (cs ++ '\n' :: rest) = cs.length + 1 + leadFrom false rest := by
  induction cs with
  | nil => simp [leadFrom]
  | cons c cs ih =>
    have hc : c ≠ '\n' := fun hc => h (hc ▸ List.mem_cons_self)
    rw [List.cons_append, leadFrom, decide_eq_true hc, ih fun hn => h (List.mem_cons_of_mem c hn),
      List.length_cons]
    omega

/-- A comment on the first line is passed over. -/
theorem drop_leadLength_comment {cs : List Char} (h : '\n' ∉ cs) (lines : List String) :
    (charsOf (String.ofList (';' :: cs) :: lines)).drop
        (leadLength (charsOf (String.ofList (';' :: cs) :: lines))) =
      (charsOf lines).drop (leadLength (charsOf lines)) := by
  have hsplit : charsOf (String.ofList (';' :: cs) :: lines) =
      (';' :: cs ++ ['\n']) ++ charsOf lines := by
    simp [charsOf]
  have hfirst : ∀ more, leadLength (';' :: more) = 1 + leadFrom true more := fun _ => rfl
  have hlead : leadLength (charsOf (String.ofList (';' :: cs) :: lines)) =
      (';' :: cs ++ ['\n']).length + leadLength (charsOf lines) := by
    rw [charsOf_cons, String.toList_ofList, List.cons_append, hfirst, leadFrom_comment h,
      leadLength]
    simp
    omega
  rw [hlead, hsplit, List.drop_length_add_append]

theorem drop_leadLength_powerLibrary :
    ∃ rest, (charsOf powerLibraryLines).drop (leadLength (charsOf powerLibraryLines)) =
      '(' :: rest :=
  ⟨_, (drop_leadLength_comment (by decide) _).trans
    ((drop_leadLength_comment (by decide) _).trans rfl)⟩

/-- **The library is read as its module.** -/
theorem Module.ofBytes_powerLibrary :
    Module.ofBytes (Text.encode powerLibrary) = .ok powerModule := by
  have hfirst : ∃ bs, Text.encode ";; rerun's numeric standard library." = 59 :: bs := ⟨_, rfl⟩
  obtain ⟨bs, hfirst⟩ := hfirst
  obtain ⟨rest, hlead⟩ := drop_leadLength_powerLibrary
  have hbytes : Text.encode powerLibrary = 59 :: (bs ++ _) :=
    (encode_unlines_cons _ _).trans (congrArg (· ++ _) hfirst)
  rw [Module.ofBytes_encode hbytes (by decide), powerLibrary, toList_unlines]
  apply Module.ofText_eq_ok hlead
  rw [trees?, tokens, tokensFrom_charsOf forall₂_powerLexemes]
  change (gather [] [] powerLexemes.flatten).bind _ = _
  rw [gather_powerLexemes]
  exact Module.ofTrees?_powerTree

end Wasm

end StackLang
