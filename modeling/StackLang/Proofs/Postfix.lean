import Mathlib.Logic.ExistsUnique
import StackLang.Expr
import StackLang.Program

/-!
# The postfix language

The compiler only counts: it adds one for a token that pushes, takes one off for a token that
consumes, and looks at the count in between. This file shows that the counting recognises exactly
the listings of trees, and that a listing has one tree.

## Three views of a scan

`Token.Means` says what a single token stands for, without positions and without faults.
`Program.Reads` puts tokens in a row and keeps the depth, and `Program.scan_eq_ok_iff` ties it to
the scan of the compiler. `Expr.listing` is a stack of trees, each written after the one below it:
reading on from a stack of `d` trees at depth `d` always leads to another such stack.

## Main results

* `Token.classify_eq_ok_iff` — the instruction of a token
* `Program.reads_tokens`, `Program.Reads.exists_listing` — from trees to depths and back
* `Expr.append_tokens_inj` — no listing is a proper end of another one
* `Program.compile_eq_ok_iff` — what is compiled, and to what
-/

namespace StackLang

/-- Work in two parts has a result when both parts have one. -/
theorem bind_eq_ok_iff {ε α β : Type} {x : Except ε α} {f : α → Except ε β} {b : β} :
    (x >>= f) = .ok b ↔ ∃ a, x = .ok a ∧ f a = .ok b := by
  cases x with
  | error e => simp [bind, Except.bind]
  | ok a => simp [bind, Except.bind]

/-! ## Tokens -/

/-- The instruction of an operator. -/
def Operator.instr : Operator → Instr
  | .arith op => .arith op
  | .power => .call "pow"

theorem Operator.instr_injective {op op' : Operator} (h : op.instr = op'.instr) : op = op' := by
  cases op with
  | arith a =>
    cases op' with
    | arith a' => rw [Instr.arith.inj h]
    | power => exact nomatch h
  | power =>
    cases op' with
    | arith a' => exact nomatch h
    | power => rfl

theorem Operator.pops_instr (op : Operator) : op.instr.pops = 2 := by
  cases op <;> rfl

/-- The instruction of a literal. -/
def Literal.instr (l : Literal) : Instr := .push (Token.literalValue l.text : Int)

namespace Token

/-- What a token stands for. -/
inductive Means : String → Instr → Prop
  | param (p : Param) : Means p.name (.load p)
  | literal (l : Literal) : Means l.text l.instr
  | operator (op : Operator) : Means op.word op.instr

/-- A literal is no word of the language. -/
theorem lookup_vocabulary_of_isLiteral {token : String} (h : isLiteral token = true) :
    vocabulary.lookup token = none := by
  rw [List.lookup_eq_none_iff]
  intro entry hentry
  have hword : isLiteral entry.1 = false := by
    revert entry
    decide
  rw [bne_iff_ne]
  rintro rfl
  rw [h] at hword
  exact Bool.noConfusion hword

/-- A word of the language means what the vocabulary says. -/
theorem means_of_lookup {token : String} {i : Instr} (h : vocabulary.lookup token = some i) :
    Means token i := by
  have hmem : (token, i) ∈ vocabulary := by
    obtain ⟨before, after, hsplit, -⟩ := List.lookup_eq_some_iff.mp h
    rw [hsplit]
    exact List.mem_append_right _ List.mem_cons_self
  simp only [vocabulary, List.mem_cons, Prod.mk.injEq, List.not_mem_nil, or_false] at hmem
  rcases hmem with ⟨rfl, rfl⟩ | ⟨rfl, rfl⟩ | ⟨rfl, rfl⟩ | ⟨rfl, rfl⟩ | ⟨rfl, rfl⟩ | ⟨rfl, rfl⟩ |
    ⟨rfl, rfl⟩ | ⟨rfl, rfl⟩
  · exact .param .p1
  · exact .param .p2
  · exact .operator (.arith .add)
  · exact .operator (.arith .sub)
  · exact .operator (.arith .mul)
  · exact .operator (.arith .div)
  · exact .operator (.arith .rem)
  · exact .operator .power

/-- **The instruction of a token**, wherever the token stands. -/
theorem classify_eq_ok_iff {token : String} (index : Int) {i : Instr} :
    classify token index = .ok i ↔ Means token i := by
  constructor
  · intro h
    rw [classify] at h
    cases hl : vocabulary.lookup token with
    | some j =>
      rw [hl] at h
      obtain rfl : j = i := Except.ok.inj h
      exact means_of_lookup hl
    | none =>
      rw [hl] at h
      by_cases hlit : isLiteral token = true
      · by_cases hlong : token.toList.length > Number.maxDigits
        · simp [hlit, literal, hlong] at h
        · simp only [hlit, literal, hlong, if_true, if_false, Except.ok.injEq] at h
          subst h
          exact .literal ⟨token, hlit, Nat.le_of_not_gt hlong⟩
      · simp [hlit] at h
  · rintro (p | l | op)
    · cases p <;> rfl
    · rw [classify, lookup_vocabulary_of_isLiteral l.isLiteral]
      simp [l.isLiteral, literal, Nat.not_lt.mpr l.isShort, Literal.instr]
    · rcases op with op | _
      · cases op <;> rfl
      · rfl

theorem Means.unique {token : String} {i j : Instr} (hi : Means token i) (hj : Means token j) :
    i = j := by
  have h := (classify_eq_ok_iff 0).mpr hi
  rw [(classify_eq_ok_iff 0).mpr hj] at h
  exact (Except.ok.inj h).symm

/-- Only one word calls the power function. -/
theorem Means.eq_call_iff {token : String} {i : Instr} (h : Means token i) :
    i = .call "pow" ↔ token = "cpow" := by
  cases h with
  | param p => cases p <;> decide
  | literal l =>
    constructor
    · intro h
      cases h
    · intro h
      have hliteral := l.isLiteral
      rw [h] at hliteral
      exact absurd hliteral (by decide)
  | operator op =>
    cases op with
    | arith op => cases op <;> decide
    | power => decide

end Token

namespace Program

/-! ## Rows of tokens -/

/-- The instruction of the token at `index` and the depth after it. -/
def step (index : Nat) (depth : Int) (token : String) : Except Fault (Instr × Int) := do
  let i ← Token.classify token index
  let d ← stackEffect (.instr i) depth index token
  return (i, d)

theorem scan_cons (index : Nat) (depth : Int) (token : String) (tokens : List String) :
    scan index depth (token :: tokens) = do
      let s ← step index depth token
      let rest ← scan (index + 1) s.2 tokens
      return s :: rest := by
  simp only [scan, step, bind_assoc, pure_bind]

/-- **One token.** It must mean something, and what it takes from the stack must be there. -/
theorem step_eq_ok_iff {index : Nat} {depth : Int} {token : String} {i : Instr} {d : Int} :
    step index depth token = .ok (i, d) ↔
      Token.Means token i ∧ (i.pops : Int) ≤ depth ∧ d = depth - i.pops + i.pushes := by
  rw [step, bind_eq_ok_iff]
  constructor
  · rintro ⟨j, hj, h⟩
    obtain ⟨d', hd', h⟩ := bind_eq_ok_iff.mp h
    obtain ⟨rfl, rfl⟩ := Prod.mk.inj (Except.ok.inj h)
    rw [stackEffect] at hd'
    split at hd'
    · exact nomatch hd'
    · exact ⟨(Token.classify_eq_ok_iff _).mp hj, by omega, (Except.ok.inj hd').symm⟩
  · rintro ⟨hm, hd, rfl⟩
    refine ⟨i, (Token.classify_eq_ok_iff _).mpr hm, ?_⟩
    rw [stackEffect, if_neg (Int.not_lt.mpr hd)]
    rfl

/-- The tokens are read from the depth on, with these instructions and the depths after them. -/
inductive Reads : Int → List String → List (Instr × Int) → Prop
  | nil (depth : Int) : Reads depth [] []
  | cons {depth : Int} {token : String} {i : Instr} {tokens : List String}
      {steps : List (Instr × Int)} (means : Token.Means token i) (pops : (i.pops : Int) ≤ depth)
      (rest : Reads (depth - i.pops + i.pushes) tokens steps) :
      Reads depth (token :: tokens) ((i, depth - i.pops + i.pushes) :: steps)

theorem scan_eq_ok_iff (index : Nat) {depth : Int} {tokens : List String}
    {steps : List (Instr × Int)} :
    scan index depth tokens = .ok steps ↔ Reads depth tokens steps := by
  induction tokens generalizing index depth steps with
  | nil =>
    constructor
    · intro h
      obtain rfl : [] = steps := Except.ok.inj h
      exact .nil depth
    · rintro ⟨⟩
      rfl
  | cons token tokens ih =>
    rw [scan_cons, bind_eq_ok_iff]
    constructor
    · rintro ⟨⟨i, d⟩, hs, h⟩
      obtain ⟨rest, hrest, h⟩ := bind_eq_ok_iff.mp h
      obtain rfl : (i, d) :: rest = steps := Except.ok.inj h
      obtain ⟨hm, hd, rfl⟩ := step_eq_ok_iff.mp hs
      exact .cons hm hd ((ih _).mp hrest)
    · rintro (_ | ⟨hm, hd, hrest⟩)
      refine ⟨(_, _), step_eq_ok_iff.mpr ⟨hm, hd, rfl⟩, ?_⟩
      exact bind_eq_ok_iff.mpr ⟨_, (ih _).mpr hrest, rfl⟩

/-- The depth after some steps that start at `depth`. -/
def endDepth (depth : Int) (steps : List (Instr × Int)) : Int := (steps.map (·.2)).getLastD depth

@[simp] theorem endDepth_nil (depth : Int) : endDepth depth [] = depth := rfl

@[simp] theorem endDepth_cons (depth : Int) (s : Instr × Int) (steps : List (Instr × Int)) :
    endDepth depth (s :: steps) = endDepth s.2 steps := by
  rw [endDepth, endDepth, List.map_cons, List.getLastD_cons]

theorem endDepth_append (depth : Int) (steps rest : List (Instr × Int)) :
    endDepth depth (steps ++ rest) = endDepth (endDepth depth steps) rest := by
  induction steps generalizing depth with
  | nil => rfl
  | cons s steps ih => rw [List.cons_append, endDepth_cons, endDepth_cons, ih]

/-- Reading goes on where it left off. -/
theorem Reads.append {depth : Int} {tokens more : List String} {steps rest : List (Instr × Int)}
    (h : Reads depth tokens steps) (hrest : Reads (endDepth depth steps) more rest) :
    Reads depth (tokens ++ more) (steps ++ rest) := by
  induction h with
  | nil depth => exact hrest
  | cons hm hd _ ih => exact .cons hm hd (ih (by rwa [endDepth_cons] at hrest))

/-- What is read of a row of tokens is read of its beginning. -/
theorem Reads.exists_prefix {depth : Int} {tokens more : List String} {steps : List (Instr × Int)}
    (h : Reads depth (tokens ++ more) steps) :
    ∃ first rest, steps = first ++ rest ∧ Reads depth tokens first ∧
      Reads (endDepth depth first) more rest := by
  induction tokens generalizing depth steps with
  | nil => exact ⟨[], steps, rfl, .nil depth, h⟩
  | cons token tokens ih =>
    rcases h with _ | ⟨hm, hd, h⟩
    obtain ⟨first, rest, rfl, hfirst, hrest⟩ := ih h
    exact ⟨_ :: first, rest, rfl, .cons hm hd hfirst, by rwa [endDepth_cons]⟩

/-- A row of tokens is read in one way. -/
theorem Reads.unique {depth : Int} {tokens : List String} {steps steps' : List (Instr × Int)}
    (h : Reads depth tokens steps) (h' : Reads depth tokens steps') : steps = steps' :=
  Except.ok.inj ((scan_eq_ok_iff 0).mpr h ▸ (scan_eq_ok_iff 0).mpr h')

end Program

/-! ## Trees and their listings -/

namespace Expr

/-- The instructions of a tree, each after those of its operands. -/
def instrs : Expr → List Instr
  | .param p => [.load p]
  | .literal l => [l.instr]
  | .node op left right => left.instrs ++ right.instrs ++ [op.instr]

/-- The token and the instruction at the root. -/
def root : Expr → String × Instr
  | .param p => (p.name, .load p)
  | .literal l => (l.text, l.instr)
  | .node op _ _ => (op.word, op.instr)

/-- The listing without the root. -/
def operands : Expr → List String
  | .param _ => []
  | .literal _ => []
  | .node _ left right => left.tokens ++ right.tokens

theorem tokens_eq (e : Expr) : e.tokens = e.operands ++ [e.root.1] := by
  cases e <;> rfl

theorem means_root (e : Expr) : Token.Means e.root.1 e.root.2 := by
  cases e with
  | param p => exact .param p
  | literal l => exact .literal l
  | node op left right => exact .operator op

/-- Listings that end alike have the same root, and what stands before the roots ends alike. -/
theorem root_eq_of_append_tokens {e e' : Expr} {front front' : List String}
    (h : front ++ e.tokens = front' ++ e'.tokens) :
    e.root = e'.root ∧ front ++ e.operands = front' ++ e'.operands := by
  rw [tokens_eq, tokens_eq, ← List.append_assoc, ← List.append_assoc,
    List.append_singleton_inj] at h
  have hi : e.root.2 = e'.root.2 := e.means_root.unique (h.2 ▸ e'.means_root)
  exact ⟨Prod.ext h.2 hi, h.1⟩

/-- **No listing is a proper end of another one.** The last token tells what stands at the root;
the right operand is the listing that ends before it, and the left operand the one before that. -/
theorem append_tokens_inj {e e' : Expr} {front front' : List String}
    (h : front ++ e.tokens = front' ++ e'.tokens) : e = e' ∧ front = front' := by
  induction e generalizing e' front front' with
  | param p =>
    obtain ⟨hroot, hfront⟩ := root_eq_of_append_tokens h
    have hi := congrArg Prod.snd hroot
    cases e' with
    | param p' => exact ⟨congrArg _ (Instr.load.inj hi), by simpa [operands] using hfront⟩
    | literal l' => exact nomatch hi
    | node op' left' right' => cases op' <;> exact nomatch hi
  | literal l =>
    obtain ⟨hroot, hfront⟩ := root_eq_of_append_tokens h
    have hi := congrArg Prod.snd hroot
    cases e' with
    | param p' => exact nomatch hi
    | literal l' =>
      have hl : l = l' := by
        obtain ⟨text, _, _⟩ := l
        obtain ⟨text', _, _⟩ := l'
        obtain rfl : text = text' := congrArg Prod.fst hroot
        rfl
      exact ⟨congrArg _ hl, by simpa [operands] using hfront⟩
    | node op' left' right' => cases op' <;> exact nomatch hi
  | node op left right ihl ihr =>
    obtain ⟨hroot, hfront⟩ := root_eq_of_append_tokens h
    have hi := congrArg Prod.snd hroot
    cases e' with
    | param p' => cases op <;> exact nomatch hi
    | literal l' => cases op <;> exact nomatch hi
    | node op' left' right' =>
      have hop : op = op' := Operator.instr_injective hi
      rw [operands, operands, ← List.append_assoc, ← List.append_assoc] at hfront
      obtain ⟨hright, hleft⟩ := ihr hfront
      obtain ⟨hleft, hrest⟩ := ihl hleft
      exact ⟨by rw [hop, hleft, hright], hrest⟩

/-- A listing has one tree. -/
theorem tokens_injective {e e' : Expr} (h : e.tokens = e'.tokens) : e = e' :=
  (append_tokens_inj (congrArg ([] ++ ·) h)).1

/-- The listings of the trees on a stack, the lowest tree first. -/
def listing : List Expr → List String
  | [] => []
  | e :: es => listing es ++ e.tokens

end Expr

namespace Program

/-- **A listing is read.** Whatever lies on the stack stays there, and the depth grows by one. -/
theorem reads_tokens (e : Expr) (depth : Int) (h : 0 ≤ depth) :
    ∃ steps, Reads depth e.tokens steps ∧ steps.map (·.1) = e.instrs ∧
      endDepth depth steps = depth + 1 := by
  induction e generalizing depth with
  | param p =>
    exact ⟨[(_, _)], .cons (.param p) h (.nil _), rfl, by simp [Instr.pops, Instr.pushes]⟩
  | literal l =>
    exact ⟨[(_, _)], .cons (.literal l) h (.nil _), rfl,
      by simp [Literal.instr, Instr.pops, Instr.pushes]⟩
  | node op left right ihl ihr =>
    obtain ⟨ls, hl, hli, hld⟩ := ihl depth h
    obtain ⟨rs, hr, hri, hrd⟩ := ihr (depth + 1) (by omega)
    have hpops := op.pops_instr
    have hroot : Reads (depth + 1 + 1) [op.word] [(op.instr, depth + 1 + 1 - 2 + 1)] := by
      have hpops' : (op.instr.pops : Int) ≤ depth + 1 + 1 := by rw [hpops]; omega
      have hread := Reads.cons (.operator op) hpops' (.nil _)
      rwa [hpops] at hread
    refine ⟨ls ++ rs ++ [(op.instr, depth + 1 + 1 - 2 + 1)], ?_, ?_, ?_⟩
    · refine (hl.append (hld ▸ hr)).append ?_
      rw [endDepth_append, hld, hrd]
      exact hroot
    · simp [hli, hri, Expr.instrs]
    · rw [endDepth_append]
      simp only [endDepth_cons, endDepth_nil]
      omega

/-- **Whatever is read is a row of listings.** A stack of as many trees as the depth says goes
over into another one. -/
theorem Reads.exists_listing {depth : Int} {tokens : List String} {steps : List (Instr × Int)}
    (h : Reads depth tokens steps) (es : List Expr) (hes : (es.length : Int) = depth) :
    ∃ es', Expr.listing es' = Expr.listing es ++ tokens ∧
      (es'.length : Int) = endDepth depth steps := by
  induction h generalizing es with
  | nil depth => exact ⟨es, (List.append_nil _).symm, hes⟩
  | @cons depth token i tokens steps hm hd _ ih =>
    rw [endDepth_cons]
    -- a token that pushes adds a tree of one node
    have hleaf : ∀ e : Expr, e.tokens = [token] → i.pops = 0 →
        ∃ es', Expr.listing es' = Expr.listing es ++ token :: tokens ∧
          (es'.length : Int) = endDepth (depth - i.pops + i.pushes) steps := by
      intro e he hpops
      obtain ⟨es', hl, hd'⟩ := ih (e :: es) (by simp [hpops, Instr.pushes, hes])
      exact ⟨es', by rw [hl, Expr.listing, he, List.append_assoc]; rfl, hd'⟩
    cases hm with
    | param p => exact hleaf (.param p) rfl rfl
    | literal l => exact hleaf (.literal l) rfl rfl
    | operator op =>
      have hpops := op.pops_instr
      match es, hes with
      | [], hes => rw [hpops] at hd; simp at hes; omega
      | [_], hes => rw [hpops] at hd; simp at hes; omega
      | right :: left :: es, hes =>
        obtain ⟨es', hl, hd'⟩ := ih (.node op left right :: es) (by
          simp only [List.length_cons, hpops, Instr.pushes] at hes ⊢
          omega)
        refine ⟨es', ?_, hd'⟩
        rw [hl]
        simp [Expr.listing, Expr.tokens]

/-! ## Compiling -/

end Program

namespace ModuleText

/-- The line of one instruction, indented. -/
def instrLine (i : Instr) : String := "    " ++ i.text

/-- The line that imports the power function. -/
def powerLine : String :=
  "  (import \"stdlib\" \"pow\" (func $pow (param i32 i32) (result i32)))"

/-- The lines of a module with these instructions. -/
def linesOf (imports : List String) (instrs : List Instr) : List String :=
  "(module" :: imports.map (fun _ => powerLine) ++ closeLast (header :: instrs.map instrLine)
    ++ ["  (export \"compute\" (func $compute))", ")"]

theorem mapM_importLine {imports : List String} (h : ∀ name ∈ imports, name = "pow") :
    imports.mapM importLine = .ok (imports.map fun _ => powerLine) := by
  induction imports with
  | nil => rfl
  | cons name imports ih =>
    obtain rfl : name = "pow" := h name List.mem_cons_self
    rw [List.mapM_cons, ih fun n hn => h n (List.mem_cons_of_mem _ hn)]
    rfl

/-- Instructions with imports of the power function, and nothing else, are written down. -/
theorem render_instrs {imports : List String} (h : ∀ name ∈ imports, name = "pow")
    (instrs : List Instr) :
    render imports (instrs.map .instr) = .ok (unlines (linesOf imports instrs)) := by
  have hbody : (instrs.map Entry.instr).mapM entryLine = .ok (instrs.map instrLine) := by
    rw [List.mapM_map]
    exact List.mapM_pure
  rw [render, mapM_importLine h, hbody]
  rfl

end ModuleText

/-- The instruction calls no function but the power function. -/
def Instr.IsLinkable (i : Instr) : Prop := ∀ name, i.callee? = some name → name = "pow"

namespace Program

/-- The names called by instructions that call the power function only. -/
theorem calledNames_eq {instrs : List Instr} (h : ∀ i ∈ instrs, i.IsLinkable) :
    calledNames instrs = if .call "pow" ∈ instrs then ["pow"] else [] := by
  induction instrs with
  | nil => rfl
  | cons i instrs ih =>
    have hrest := fun j hj => h j (List.mem_cons_of_mem i hj)
    cases hi : i.callee? with
    | none =>
      have hne : Instr.call "pow" ≠ i := by
        rintro rfl
        exact nomatch hi
      rw [calledNames, List.filterMap_cons_none hi, ← calledNames, ih hrest]
      simp [hne]
    | some name =>
      obtain rfl : name = "pow" := h i List.mem_cons_self name hi
      have hcall : i = .call "pow" := by
        cases i <;> simp_all [Instr.callee?]
      have hothers : (instrs.filterMap Instr.callee?).filter (fun b => !b == "pow") = [] := by
        rw [List.filter_eq_nil_iff]
        intro name hname
        obtain ⟨j, hj, hcallee⟩ := List.mem_filterMap.mp hname
        simp [hrest j hj name hcallee]
      rw [calledNames, List.filterMap_cons_some hi, List.eraseDups_cons, hothers, hcall,
        if_pos List.mem_cons_self]
      rfl

/-- Only the power function is called by what was read. -/
theorem Reads.isLinkable {depth : Int} {tokens : List String} {steps : List (Instr × Int)}
    (h : Reads depth tokens steps) : ∀ i ∈ steps.map (·.1), i.IsLinkable := by
  induction h with
  | nil depth => exact fun i hi => absurd hi List.not_mem_nil
  | cons hm _ _ ih =>
    intro i hi name hname
    rcases List.mem_cons.mp hi with rfl | hi
    · cases hm with
      | param p => exact nomatch hname
      | literal l => exact nomatch hname
      | operator op =>
        cases op with
        | arith op => exact nomatch hname
        | power => exact (Option.some.inj hname).symm
    · exact ih i hi name hname

/-- The program that steps make of a row of tokens. -/
def ofSteps (tokens : List String) (steps : List (Instr × Int)) : Program where
  tokens := tokens
  instrs := steps.map (·.1)
  depths := steps.map (·.2)
  imports := calledNames (steps.map (·.1))
  text := ModuleText.unlines
    (ModuleText.linesOf (calledNames (steps.map (·.1))) (steps.map (·.1)))

/-- **Tokens that are read are compiled if one value is left**, and else say how many are. -/
theorem compile_of_reads {tokens : List String} {steps : List (Instr × Int)}
    (h : Reads 0 tokens steps) :
    compile tokens = if endDepth 0 steps = 1 then .ok (ofSteps tokens steps)
      else .error (.stackImbalance (endDepth 0 steps)) := by
  have hnames : ∀ name ∈ calledNames (steps.map (·.1)), name = "pow" := by
    intro name hname
    rw [calledNames_eq h.isLinkable] at hname
    split at hname
    · exact List.mem_singleton.mp hname
    · exact absurd hname List.not_mem_nil
  rw [compile, (scan_eq_ok_iff 0).mpr h]
  change (if endDepth 0 steps ≠ 1 then _ else _) = _
  by_cases hd : endDepth 0 steps = 1
  · rw [if_neg (not_not_intro hd), if_pos hd, ModuleText.render_instrs hnames]
    rfl
  · rw [if_pos hd, if_neg hd]
    rfl

/-- A fault that ends the scan is the fault of the whole. -/
theorem compile_of_scan_error {tokens : List String} {f : Fault} (h : scan 0 0 tokens = .error f) :
    compile tokens = .error f := by
  rw [compile, h]
  rfl

/-- **What is compiled, and to what.** -/
theorem compile_eq_ok_iff {tokens : List String} {p : Program} :
    compile tokens = .ok p ↔
      ∃ steps, Reads 0 tokens steps ∧ endDepth 0 steps = 1 ∧ p = ofSteps tokens steps := by
  constructor
  · intro h
    cases hscan : scan 0 0 tokens with
    | error f => exact nomatch (compile_of_scan_error hscan).symm.trans h
    | ok steps =>
      have hreads := (scan_eq_ok_iff 0).mp hscan
      rw [compile_of_reads hreads] at h
      split at h
      · next hd => exact ⟨steps, hreads, hd, (Except.ok.inj h).symm⟩
      · exact nomatch h
  · rintro ⟨steps, hreads, hd, rfl⟩
    rw [compile_of_reads hreads, if_pos hd]

/-- A program needs the library exactly if it calls the power function. -/
theorem needsLibrary_iff {tokens : List String} {p : Program} (h : compile tokens = .ok p) :
    p.needsLibrary = true ↔ .call "pow" ∈ p.instrs := by
  obtain ⟨steps, hreads, -, rfl⟩ := compile_eq_ok_iff.mp h
  rw [needsLibrary, ofSteps, calledNames_eq hreads.isLinkable]
  split <;> simp [*]

theorem Reads.call_mem_iff {depth : Int} {tokens : List String} {steps : List (Instr × Int)}
    (h : Reads depth tokens steps) : .call "pow" ∈ steps.map (·.1) ↔ "cpow" ∈ tokens := by
  induction h with
  | nil depth => simp
  | cons hm _ _ ih =>
    rw [List.map_cons, List.mem_cons, List.mem_cons, ih, eq_comm, hm.eq_call_iff, eq_comm]

/-- A program needs the library exactly if its word for powers is among the tokens. -/
theorem needsLibrary_iff_mem {tokens : List String} {p : Program} (h : compile tokens = .ok p) :
    p.needsLibrary = true ↔ "cpow" ∈ tokens := by
  rw [needsLibrary_iff h]
  obtain ⟨steps, hreads, -, rfl⟩ := compile_eq_ok_iff.mp h
  exact hreads.call_mem_iff

/-- The listing of a tree is compiled to the instructions of the tree. -/
theorem instrs_of_compile {tokens : List String} {p : Program} (h : compile tokens = .ok p)
    {e : Expr} (he : e.tokens = tokens) : p.instrs = e.instrs := by
  obtain ⟨steps, hreads, -, rfl⟩ := compile_eq_ok_iff.mp h
  obtain ⟨steps', hreads', hinstrs, -⟩ := reads_tokens e 0 (Int.le_refl 0)
  rw [he] at hreads'
  rw [← hinstrs, ← hreads.unique hreads']
  rfl

/-- What is compiled is the listing of a tree. -/
theorem exists_tree_of_compile {tokens : List String} {p : Program}
    (h : compile tokens = .ok p) : ∃ e : Expr, e.tokens = tokens := by
  obtain ⟨steps, hreads, hd, -⟩ := compile_eq_ok_iff.mp h
  obtain ⟨es, hlisting, hlength⟩ := hreads.exists_listing [] rfl
  rw [hd] at hlength
  match es, hlength with
  | [], hlength => simp at hlength
  | [e], _ => exact ⟨e, by simpa [Expr.listing] using hlisting⟩
  | _ :: _ :: _, hlength => simp at hlength; omega

/-- The listing of a tree is compiled. -/
theorem exists_compile_tokens (e : Expr) : ∃ p, compile e.tokens = .ok p := by
  obtain ⟨steps, hreads, -, hd⟩ := reads_tokens e 0 (Int.le_refl 0)
  exact ⟨_, compile_eq_ok_iff.mpr ⟨steps, hreads, hd, rfl⟩⟩

/-- **The compiler accepts the postfix language.** The lists that are compiled are the listings of
trees over inputs and literals, and each of them lists one tree only. -/
theorem compiles_iff_lists_tree (tokens : List String) :
    ((∃ p, compile tokens = .ok p) ↔ ∃ e : Expr, e.tokens = tokens) ∧
      ((∃ p, compile tokens = .ok p) ↔ ∃! e : Expr, e.tokens = tokens) := by
  have hiff : (∃ p, compile tokens = .ok p) ↔ ∃ e : Expr, e.tokens = tokens := by
    constructor
    · rintro ⟨p, hp⟩
      exact exists_tree_of_compile hp
    · rintro ⟨e, rfl⟩
      exact exists_compile_tokens e
  refine ⟨hiff, hiff.trans ⟨?_, ExistsUnique.exists⟩⟩
  rintro ⟨e, he⟩
  exact ⟨e, he, fun e' he' => Expr.tokens_injective (he'.trans he.symm)⟩

end Program

end StackLang
