import StackLang.Proofs.Lexing
import StackLang.Wasm.Reader

/-!
# Programs read back

The text that was written for a program is read as the module one expects: the power function is
imported if the program calls it, and the only function has the instructions of the program as its
operations. Names have become numbers and numerals have become words, and nothing was lost, since a
constant is written as its remainder and a remainder is short enough to be read.

The reader works on tokens, trees, fields and groups of words, and there is one lemma for each of
these. Only the body of the function depends on the program; everything around it is evaluated.

## Main definitions

* `Wasm.programModule` — the module of a program

## Main results

* `Wasm.trees?_linesOf` — the tree of a module text
* `Wasm.readBody?_words` — the words of some instructions are read as these instructions
* `Wasm.Module.ofBytes_compile` — the text of a compiled program is read as its module
-/

namespace StackLang

namespace Wasm

/-! ## Trees -/

theorem gather_words (outer : List (List Sexp)) (current : List Sexp) (ws : List String)
    (ts : List Lexeme) :
    gather outer current (ws.map .word ++ ts) =
      gather outer ((ws.map Sexp.word).reverse ++ current) ts := by
  induction ws generalizing current with
  | nil => rfl
  | cons w ws ih =>
    rw [List.map_cons, List.cons_append, gather, ih]
    simp

/-- The tree of the line that imports the power function. -/
def importTree : Sexp :=
  .list [.word "import", .string "stdlib", .string "pow", .list [.word "func", .word "$pow",
    .list [.word "param", .word "i32", .word "i32"], .list [.word "result", .word "i32"]]]

/-- The tree of the function with these words in its body. -/
def functionTree (words : List String) : Sexp :=
  .list (.word "func" :: .word "$compute" :: .list [.word "param", .word "$p1", .word "i32"] ::
    .list [.word "param", .word "$p2", .word "i32"] :: .list [.word "result", .word "i32"] ::
    words.map .word)

/-- The tree of the line that exports the function. -/
def exportTree : Sexp :=
  .list [.word "export", .string "compute", .list [.word "func", .word "$compute"]]

/-- The tree of a module with this many imports and these words in the body of its function. -/
def moduleTree (imports : Nat) (words : List String) : Sexp :=
  .list (.word "module" :: List.replicate imports importTree ++ [functionTree words, exportTree])

theorem gather_imports (outer : List (List Sexp)) (current : List Sexp) (imports : Nat)
    (ts : List Lexeme) :
    gather outer current ((List.replicate imports importLexemes).flatten ++ ts) =
      gather outer (List.replicate imports importTree ++ current) ts := by
  induction imports generalizing current with
  | zero => rfl
  | succ n ih =>
    have himport : ∀ us, gather outer current (importLexemes ++ us) =
        gather outer (importTree :: current) us := by
      intro us
      simp [importLexemes, importTree, gather]
    rw [List.replicate_succ, List.flatten_cons, List.append_assoc, himport, ih,
      List.replicate_succ', List.append_assoc]
    rfl

theorem gather_moduleLexemes (imports : Nat) (words : List String) :
    gather [] [] (moduleLexemes imports words) = some [moduleTree imports words] := by
  have hopening : ∀ us, gather [] [] ([.opening, .word "module"] ++ us) =
      gather [[]] [.word "module"] us := fun _ => rfl
  have hheader : ∀ outer current us, gather outer current (headerLexemes ++ us) =
      gather (current :: outer) [.list [.word "result", .word "i32"],
        .list [.word "param", .word "$p2", .word "i32"],
        .list [.word "param", .word "$p1", .word "i32"], .word "$compute", .word "func"] us := by
    intro outer current us
    simp [headerLexemes, gather]
  have hclosing : ∀ above outer current us, gather (above :: outer) current ([.closing] ++ us) =
      gather outer (.list current.reverse :: above) us := fun _ _ _ _ => rfl
  have hexport : ∀ outer current us, gather outer current (exportLexemes ++ us) =
      gather outer (exportTree :: current) us := by
    intro outer current us
    simp [exportLexemes, exportTree, gather]
  simp only [moduleLexemes, List.append_assoc]
  rw [hopening, gather_imports, hheader, gather_words, hclosing, hexport]
  simp [gather, moduleTree, functionTree]

/-- **The tree of a module text.** -/
theorem trees?_linesOf (imports : List String) {instrs : List Instr}
    (h : ∀ i ∈ instrs, i.IsLinkable) :
    trees? (ModuleText.unlines (ModuleText.linesOf imports instrs)).toList =
      some [moduleTree imports.length (instrs.flatMap Instr.words)] := by
  rw [trees?, tokens_linesOf imports h]
  exact gather_moduleLexemes _ _

/-! ## Fields -/

theorem words?_map_word (ws : List String) : words? (ws.map .word) = some ws := by
  rw [words?, List.mapM_map]
  exact List.mapM_pure.trans (congrArg some (List.map_id ws))

/-- A header ends where words begin. -/
theorem readHeader?_map_word (h : Header) (ws : List String) :
    readHeader? h (ws.map .word) = some (h, ws) := by
  have hwords : readHeader? h (ws.map .word) = (words? (ws.map .word)).map fun ws => (h, ws) := by
    cases ws <;> rfl
  rw [hwords, words?_map_word]
  rfl

/-- The header of the function of a program. -/
def programHeader : Header where
  params := [some "p1", some "p2"]
  results := 1

theorem field?_functionTree (words : List String) :
    field? (functionTree words) = some (.func (some "compute") programHeader words) := by
  have hfield : field? (functionTree words) =
      (readHeader? programHeader (words.map .word)).bind fun r =>
        some (.func (some "compute") r.1 r.2) := rfl
  rw [hfield, readHeader?_map_word]
  rfl

end Wasm

/-! ## Bodies -/

/-- An integer and its remainder are the same word. -/
theorem Word.ofInteger_residue (n : Int) :
    Word.ofInteger (Word.residue n : Int) = Word.ofInteger n := by
  apply BitVec.eq_of_toNat_eq
  rw [Word.toNat_ofInteger, Word.toNat_ofInteger]
  have hpos : (0 : Int) < (Word.modulus : Int) := by decide
  have := Int.emod_nonneg n (Int.ne_of_gt hpos)
  rw [Word.residue, Word.residue, Int.toNat_of_nonneg this, Int.emod_emod_of_dvd n (Int.dvd_refl _)]

/-- The word for an instruction, and its arguments. -/
def Instr.group : Instr → String × List String
  | .load p => ("local.get", ["$" ++ p.name])
  | .push n => ("i32.const", [Number.nat (Word.residue n)])
  | .arith op => (op.mnemonic, [])
  | .call name => ("call", ["$" ++ name])

theorem Instr.words_eq (i : Instr) : i.words = i.group.1 :: i.group.2 := by
  cases i <;> rfl

/-- The words that instructions begin with. -/
def Instr.opcodes : List String :=
  ["local.get", "i32.const", "i32.add", "i32.sub", "i32.mul", "i32.div_u", "i32.rem_u", "call"]

theorem Instr.group_mem_opcodes (i : Instr) : i.group.1 ∈ opcodes := by
  cases i with
  | load p => exact List.mem_of_elem_eq_true rfl
  | push n => exact List.mem_of_elem_eq_true rfl
  | arith op => cases op <;> exact List.mem_of_elem_eq_true rfl
  | call name => exact List.mem_of_elem_eq_true rfl

namespace Wasm

theorem isArgument_name (name : String) : isArgument ("$" ++ name) = true := by
  rw [isArgument, String.toList_append]
  rfl

theorem isArgument_nat (n : Nat) : isArgument (Number.nat n) = true := by
  obtain ⟨c, cs, hcs⟩ := List.exists_cons_of_ne_nil (Number.natChars_ne_nil n)
  have hc : c.isDigit = true :=
    Number.isDigit_of_mem_natChars (n := n) (by rw [hcs]; exact List.mem_cons_self)
  rw [isArgument, Number.nat, String.toList_ofList, hcs]
  simp [hc]

/-- The first word of an instruction is no argument, and all others are. -/
theorem isArgument_group (i : Instr) :
    isArgument i.group.1 = false ∧ ∀ w ∈ i.group.2, isArgument w = true := by
  have hopcodes : ∀ w ∈ Instr.opcodes, isArgument w = false := by decide
  refine ⟨hopcodes _ i.group_mem_opcodes, ?_⟩
  cases i with
  | load p => exact fun w hw => List.mem_singleton.mp hw ▸ isArgument_name _
  | push n => exact fun w hw => List.mem_singleton.mp hw ▸ isArgument_nat _
  | arith op => exact fun w hw => absurd hw List.not_mem_nil
  | call name => exact fun w hw => List.mem_singleton.mp hw ▸ isArgument_name _

theorem foldr_groupWord_arguments {args : List String} (h : ∀ w ∈ args, isArgument w = true)
    (groups : List (String × List String)) :
    args.foldr groupWord ([], groups) = (args, groups) := by
  induction args with
  | nil => rfl
  | cons w args ih =>
    rw [List.foldr_cons, ih fun v hv => h v (List.mem_cons_of_mem w hv), groupWord,
      if_pos (h w List.mem_cons_self)]

theorem groupWords?_words (instrs : List Instr) :
    groupWords? (instrs.flatMap Instr.words) = some (instrs.map Instr.group) := by
  have hfold : (instrs.flatMap Instr.words).foldr groupWord ([], []) =
      ([], instrs.map Instr.group) := by
    induction instrs with
    | nil => rfl
    | cons i instrs ih =>
      obtain ⟨hword, hargs⟩ := isArgument_group i
      rw [List.flatMap_cons, List.foldr_append, ih, Instr.words_eq, List.foldr_cons,
        foldr_groupWord_arguments hargs, groupWord, hword]
      rfl
  rw [groupWords?, hfold]

theorem nameOf?_append (name : String) : nameOf? ("$" ++ name) = some name := by
  have hlist : ("$" ++ name).toList = '$' :: name.toList := by
    rw [String.toList_append]
    rfl
  rw [nameOf?, hlist]
  exact congrArg some String.ofList_toList

theorem resolve?_name (names : List (Option String)) (name : String) :
    resolve? names ("$" ++ name) = names.idxOf? (some name) := by
  rw [resolve?, nameOf?_append]

theorem constant?_residue (n : Int) :
    constant? (Number.nat (Word.residue n)) = some (Word.residue n : Int) := by
  rw [constant?, Number.nat, String.toList_ofList, Number.readInteger_residue]

/-- What the words of an instruction mean where the inputs are the local variables. -/
theorem operation?_group {funcs : List (Option String)} {funcIndex : String → Nat} {i : Instr}
    (h : ∀ name, i.callee? = some name → funcs.idxOf? (some name) = some (funcIndex name)) :
    operation? ⟨funcs, [some "p1", some "p2"]⟩ [] i.group = some (ofInstr funcIndex i) := by
  cases i with
  | load p => cases p <;> rfl
  | push n =>
    have hword : operation? ⟨funcs, [some "p1", some "p2"]⟩ [] (Instr.push n).group =
        (constant? (Number.nat (Word.residue n))).map fun n => .const (Word.ofInteger n) := rfl
    rw [hword, constant?_residue, Option.map_some, Word.ofInteger_residue]
    rfl
  | arith op => cases op <;> rfl
  | call name =>
    have hword : operation? ⟨funcs, [some "p1", some "p2"]⟩ [] (Instr.call name).group =
        (resolve? funcs ("$" ++ name)).map .call := rfl
    rw [hword, resolve?_name, h name rfl]
    rfl

/-- No instruction opens or closes a block. -/
theorem readOps?_group_cons {scope : Scope} {i : Instr} {op : Op}
    (h : operation? scope [] i.group = some op) (done : List Op)
    (groups : List (String × List String)) :
    readOps? scope [] done (i.group :: groups) = readOps? scope [] (op :: done) groups := by
  have hopcodes : ∀ w ∈ Instr.opcodes,
      w ≠ "end" ∧ w ≠ "else" ∧ (blockKinds.lookup w).isNone = true := by decide
  obtain ⟨hend, helse, hblock⟩ := hopcodes _ i.group_mem_opcodes
  rw [readOps?, if_neg hend, if_neg helse, Option.isNone_iff_eq_none.mp hblock]
  simp only [List.map_nil, h]

theorem readOps?_groups {scope : Scope} {funcIndex : String → Nat} {instrs : List Instr}
    (h : ∀ i ∈ instrs, operation? scope [] i.group = some (ofInstr funcIndex i))
    (done : List Op) :
    readOps? scope [] done (instrs.map Instr.group) =
      some (done.reverse ++ instrs.map (ofInstr funcIndex)) := by
  induction instrs generalizing done with
  | nil => simp [readOps?]
  | cons i instrs ih =>
    rw [List.map_cons, readOps?_group_cons (h i List.mem_cons_self),
      ih fun j hj => h j (List.mem_cons_of_mem i hj)]
    simp

/-- **Instructions are read back from their words.** -/
theorem readBody?_words {funcs : List (Option String)} {funcIndex : String → Nat}
    {instrs : List Instr}
    (h : ∀ i ∈ instrs, ∀ name, i.callee? = some name →
      funcs.idxOf? (some name) = some (funcIndex name)) :
    readBody? ⟨funcs, [some "p1", some "p2"]⟩ (instrs.flatMap Instr.words) =
      some (instrs.map (ofInstr funcIndex)) := by
  rw [readBody?, groupWords?_words]
  exact readOps?_groups (fun i hi => operation?_group (h i hi)) []

/-! ## Modules -/

/-- The function of a program. Whatever it calls has the number zero. -/
def programFunc (instrs : List Instr) : Func where
  name := some "compute"
  signature := ⟨2, 1⟩
  locals := 0
  body := instrs.map (ofInstr fun _ => 0)

/-- The module of a program, which imports the power function or does not. -/
def programModule (usesPower : Bool) (instrs : List Instr) : Module where
  imports := List.replicate usesPower.toNat ⟨"stdlib", "pow", ⟨2, 1⟩⟩
  funcs := [programFunc instrs]
  exports := [("compute", usesPower.toNat)]
  start := none

/-- The fields of the module of a program. -/
def programFields (usesPower : Bool) (words : List String) : List Field :=
  List.replicate usesPower.toNat (.imports "stdlib" "pow" (some "pow") ⟨2, 1⟩) ++
    [.func (some "compute") programHeader words, .exports "compute" "$compute"]

theorem mapM_field?_moduleTree (usesPower : Bool) (words : List String) :
    (List.replicate usesPower.toNat importTree ++ [functionTree words, exportTree]).mapM field? =
      some (programFields usesPower words) := by
  have himport : field? importTree = some (.imports "stdlib" "pow" (some "pow") ⟨2, 1⟩) := rfl
  have hexport : field? exportTree = some (.exports "compute" "$compute") := rfl
  cases usesPower <;>
    simp [programFields, himport, hexport, field?_functionTree]

theorem Module.add?_function {names : List (Option String)} {words : List String} {ops : List Op}
    (h : readBody? ⟨names, [some "p1", some "p2"]⟩ words = some ops) (m : Module) :
    m.add? names (.func (some "compute") programHeader words) =
      some { m with funcs := m.funcs ++ [⟨some "compute", ⟨2, 1⟩, 0, ops⟩] } := by
  have hbody : readBody? ⟨names, programHeader.params ++ programHeader.locals⟩ words = some ops := h
  rw [Module.add?, hbody]
  simp [programHeader, Header.signature]

theorem Module.ofFields?_programFields {usesPower : Bool} {instrs : List Instr}
    (h : ∀ i ∈ instrs, i.IsLinkable) (hpower : .call "pow" ∈ instrs → usesPower = true) :
    Module.ofFields? (programFields usesPower (instrs.flatMap Instr.words)) =
      some (programModule usesPower instrs) := by
  have hcall : ∀ i ∈ instrs, ∀ name, i.callee? = some name →
      (funcNames (programFields usesPower (instrs.flatMap Instr.words))).idxOf? (some name) =
        some 0 := by
    intro i hi name hname
    obtain rfl : name = "pow" := h i hi name hname
    have hmem : Instr.call "pow" ∈ instrs := by
      cases i <;> simp_all [Instr.callee?]
    rw [hpower hmem]
    rfl
  have hfunction := Module.add?_function (readBody?_words hcall)
  cases usesPower with
  | false =>
    change (Module.add? _ Module.empty _).bind _ = _
    rw [hfunction]
    rfl
  | true =>
    change (Module.add? _ _ _).bind _ = _
    rw [hfunction]
    rfl

theorem Module.ofTrees?_moduleTree {usesPower : Bool} {instrs : List Instr}
    (h : ∀ i ∈ instrs, i.IsLinkable) (hpower : .call "pow" ∈ instrs → usesPower = true) :
    Module.ofTrees? [moduleTree usesPower.toNat (instrs.flatMap Instr.words)] =
      some (programModule usesPower instrs) := by
  have hname : ∀ words, takeName
      (List.replicate usesPower.toNat importTree ++ [functionTree words, exportTree]) =
        (none, List.replicate usesPower.toNat importTree ++ [functionTree words, exportTree]) := by
    intro words
    cases usesPower <;> rfl
  rw [moduleTree, List.cons_append, Module.ofTrees?, hname]
  simp only [mapM_field?_moduleTree]
  exact Module.ofFields?_programFields h hpower

/-- A text is read as its trees say when the first thing in it is a parenthesis. -/
theorem Module.ofText_eq_ok {cs rest : List Char} {m : Module}
    (hlead : cs.drop (leadLength cs) = '(' :: rest)
    (h : (trees? cs).bind Module.ofTrees? = some m) : Module.ofText cs = .ok m := by
  rw [Module.ofText]
  simp only [hlead, h]

/-- Bytes that do not begin with a zero are read as text. -/
theorem Module.ofBytes_encode {s : String} {b : UInt8} {bs : Bytes} (h : Text.encode s = b :: bs)
    (hb : b ≠ 0) : Module.ofBytes (Text.encode s) = Module.ofText s.toList := by
  have hdecode := Text.decode?_encode s
  rw [h] at hdecode
  rw [h, Module.ofBytes, if_neg hb, hdecode]

theorem encode_unlines_cons (line : String) (lines : List String) :
    Text.encode (ModuleText.unlines (line :: lines)) =
      Text.encode line ++ Text.encode ("\n" ++ ModuleText.unlines lines) := by
  simp [ModuleText.unlines, Text.encode]

theorem Module.ofBytes_linesOf {usesPower : Bool} {imports : List String} {instrs : List Instr}
    (himports : imports.length = usesPower.toNat) (h : ∀ i ∈ instrs, i.IsLinkable)
    (hpower : .call "pow" ∈ instrs → usesPower = true) :
    Module.ofBytes (Text.encode (ModuleText.unlines (ModuleText.linesOf imports instrs))) =
      .ok (programModule usesPower instrs) := by
  have hlines : ∃ lines, ModuleText.linesOf imports instrs = "(module" :: lines := ⟨_, rfl⟩
  have htrees := trees?_linesOf imports h
  obtain ⟨lines, hlines⟩ := hlines
  rw [hlines] at htrees ⊢
  have hfirst : Text.encode "(module" = 40 :: [109, 111, 100, 117, 108, 101] := rfl
  have hbytes := encode_unlines_cons "(module" lines
  rw [hfirst] at hbytes
  have hlead : ∀ cs, leadLength ("(module".toList ++ cs) = 0 := fun _ => rfl
  rw [Module.ofBytes_encode hbytes (by decide)]
  apply Module.ofText_eq_ok
  · rw [toList_unlines, charsOf_cons, hlead]
    rfl
  · rw [htrees, himports]
    exact Module.ofTrees?_moduleTree h hpower

/-- **A compiled program is read back.** The bytes of its text are the module with its
instructions, which imports the power function exactly if the program calls it. -/
theorem Module.ofBytes_compile {tokens : List String} {p : Program}
    (h : Program.compile tokens = .ok p) :
    Module.ofBytes (Text.encode p.text) = .ok (programModule p.needsLibrary p.instrs) := by
  obtain ⟨steps, hreads, -, rfl⟩ := Program.compile_eq_ok_iff.mp h
  have hnames := Program.calledNames_eq hreads.isLinkable
  apply Module.ofBytes_linesOf ?_ hreads.isLinkable (Program.needsLibrary_iff h).mpr
  rw [Program.needsLibrary, Program.ofSteps, hnames]
  split <;> rfl

end Wasm

end StackLang
