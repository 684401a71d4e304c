import StackLang.Proofs.FirstFault
import StackLang.Proofs.ReadBack
import StackLang.Wasm.Linking

/-!
# Programs without loose ends

What a compiled program calls, it imports, and what it imports can be had. Four tables have to fit
together for this: the vocabulary, the names that are called, the signatures that imports are
written with, and the exports of the library. They do, since the vocabulary has one word only that
calls a function, however often and wherever it stands.

The text is looked at in two ways. Cut into lines, it has one line for each import and has them
before the function. Read as a module, it imports these functions, and every call in it is a call
of one of them.

## Main definitions

* `ModuleText.linesIn` — the lines of a text
* `ModuleText.isImportLine` — lines that import from the library

## Main results

* `ModuleText.linesIn_unlines` — lines that were put together are found again
* `ModuleText.linesIn_unlines_linesOf` — the lines of a module text
* `Program.compile_closed` — compiled programs have no loose ends
-/

namespace StackLang

namespace ModuleText

/-! ## Lines -/

/-- The lines of a text. What stands after the last line break is a line too. -/
def linesIn (text : String) : List String :=
  (Text.fields '\n' text.toList).map String.ofList

/-- Whether the line imports something from the library. -/
def isImportLine (line : String) : Bool :=
  "(import \"stdlib\" ".toList.isPrefixOf (line.toList.dropWhile (· = ' '))

/-- **Lines that were put together are found again.** -/
theorem linesIn_unlines {lines : List String} (h : ∀ line ∈ lines, '\n' ∉ line.toList) :
    linesIn (unlines lines) = lines ++ [""] := by
  have hfields : Text.fields '\n' (Wasm.charsOf lines) = lines.map String.toList ++ [[]] := by
    induction lines with
    | nil => rfl
    | cons line lines ih =>
      rw [Wasm.charsOf_cons, Text.fields_append_cons (h line List.mem_cons_self),
        ih fun l hl => h l (List.mem_cons_of_mem line hl)]
      rfl
  rw [linesIn, Wasm.toList_unlines, hfields]
  simp [Function.comp_def]

theorem mem_closeLast {line : String} {lines : List String} (h : line ∈ closeLast lines) :
    line ∈ lines ∨ ∃ l ∈ lines, line = l ++ ")" := by
  induction lines with
  | nil => exact absurd h List.not_mem_nil
  | cons l lines ih =>
    cases lines with
    | nil => exact .inr ⟨l, List.mem_cons_self, List.mem_singleton.mp h⟩
    | cons l' lines =>
      rcases List.mem_cons.mp h with rfl | h
      · exact .inl List.mem_cons_self
      · rcases ih h with hmem | ⟨k, hk, rfl⟩
        · exact .inl (List.mem_cons_of_mem l hmem)
        · exact .inr ⟨k, List.mem_cons_of_mem l hk, rfl⟩

/-- The text of an instruction begins with a letter. -/
theorem exists_head_text (i : Instr) :
    ∃ c cs, i.text.toList = c :: cs ∧ c ≠ ' ' ∧ c ≠ '(' := by
  cases i with
  | load p => exact ⟨'l', _, by rw [Instr.text, String.toList_append]; rfl, by decide, by decide⟩
  | push n => exact ⟨'i', _, by rw [Instr.text, String.toList_append]; rfl, by decide, by decide⟩
  | arith op => cases op <;> exact ⟨'i', _, rfl, by decide, by decide⟩
  | call name => exact ⟨'c', _, by rw [Instr.text, String.toList_append]; rfl, by decide, by decide⟩

/-- The line of an instruction is no import, whatever is put after it. -/
theorem isImportLine_instrLine (i : Instr) (rest : String) :
    isImportLine (instrLine i ++ rest) = false := by
  obtain ⟨c, cs, htext, hblank, hopen⟩ := exists_head_text i
  have hdrop : (instrLine i ++ rest).toList.dropWhile (· = ' ') = c :: (cs ++ rest.toList) := by
    rw [instrLine, String.toList_append, String.toList_append, htext]
    simp [hblank]
  have hword : "(import \"stdlib\" ".toList = '(' :: "import \"stdlib\" ".toList := rfl
  rw [isImportLine, hdrop, hword, List.isPrefixOf_cons_cons]
  simp [Ne.symm hopen]

theorem newline_not_mem_instrLine {i : Instr} (h : i.IsLinkable) :
    '\n' ∉ (instrLine i).toList := by
  rw [Wasm.toList_instrLine]
  intro hmem
  rcases List.mem_append.mp hmem with hmem | hmem
  · exact absurd hmem (by decide)
  · obtain ⟨w, hw, hmem⟩ := List.mem_flatMap.mp hmem
    rcases List.mem_cons.mp hmem with hmem | hmem
    · exact absurd hmem (by decide)
    · exact absurd ((Wasm.plainWord_of_mem_words h w hw).chars _ hmem) (by decide)

/-! ## The lines of a module -/

/-- The lines after those of the function. -/
def lastLines : List String := ["  (export \"compute\" (func $compute))", ")"]

/-- The lines after the one that opens the function. -/
def bodyLines (instrs : List Instr) : List String := closeLast (instrs.map instrLine) ++ lastLines

theorem linesOf_eq {instrs : List Instr} (h : instrs ≠ []) (imports : List String) :
    linesOf imports instrs =
      "(module" :: imports.map (fun _ => powerLine) ++ header :: bodyLines instrs := by
  obtain ⟨i, instrs, rfl⟩ := List.exists_cons_of_ne_nil h
  simp [linesOf, bodyLines, lastLines, closeLast]

/-- A line after the first of the function is that of an instruction, closed or not, or one of the
last two. -/
theorem mem_bodyLines {instrs : List Instr} {line : String} (h : line ∈ bodyLines instrs) :
    (∃ i ∈ instrs, ∃ rest ∈ ["", ")"], line = instrLine i ++ rest) ∨ line ∈ lastLines := by
  rcases List.mem_append.mp h with hline | hline
  · refine .inl ?_
    rcases mem_closeLast hline with hmem | ⟨l, hmem, rfl⟩
    · obtain ⟨i, hi, rfl⟩ := List.mem_map.mp hmem
      exact ⟨i, hi, "", List.mem_cons_self, String.append_empty.symm⟩
    · obtain ⟨i, hi, rfl⟩ := List.mem_map.mp hmem
      exact ⟨i, hi, ")", List.mem_cons_of_mem _ List.mem_cons_self, rfl⟩
  · exact .inr hline

theorem isImportLine_of_mem_bodyLines {instrs : List Instr} {line : String}
    (h : line ∈ bodyLines instrs) : isImportLine line = false := by
  rcases mem_bodyLines h with ⟨i, -, rest, -, rfl⟩ | hlast
  · exact isImportLine_instrLine i rest
  · have hno : ∀ l ∈ lastLines, isImportLine l = false := by decide
    exact hno line hlast

theorem newline_not_mem_of_mem_bodyLines {instrs : List Instr}
    (hlinkable : ∀ i ∈ instrs, i.IsLinkable) {line : String} (h : line ∈ bodyLines instrs) :
    '\n' ∉ line.toList := by
  rcases mem_bodyLines h with ⟨i, hi, rest, hrest, rfl⟩ | hlast
  · have hclosed : ∀ s ∈ ["", ")"], '\n' ∉ s.toList := by decide
    rw [String.toList_append, List.mem_append]
    exact not_or_intro (newline_not_mem_instrLine (hlinkable i hi)) (hclosed rest hrest)
  · have hno : ∀ l ∈ lastLines, '\n' ∉ l.toList := by decide
    exact hno line hlast

/-- **The lines of a module text**, one by one. -/
theorem linesIn_unlines_linesOf {instrs : List Instr} (hne : instrs ≠ [])
    (hlinkable : ∀ i ∈ instrs, i.IsLinkable) (imports : List String) :
    linesIn (unlines (linesOf imports instrs)) =
      "(module" :: imports.map (fun _ => powerLine) ++ header :: (bodyLines instrs ++ [""]) := by
  have hbreaks : ∀ line ∈ linesOf imports instrs, '\n' ∉ line.toList := by
    intro line hline
    rw [linesOf_eq hne, List.cons_append, List.mem_cons, List.mem_append, List.mem_cons] at hline
    rcases hline with rfl | hline | rfl | hline
    · decide
    · obtain ⟨-, -, rfl⟩ := List.mem_map.mp hline
      decide
    · decide
    · exact newline_not_mem_of_mem_bodyLines hlinkable hline
  rw [linesIn_unlines hbreaks, linesOf_eq hne, List.append_assoc]
  rfl

/-- Those of the imports come first, then that of the function, and no later line imports
anything. -/
theorem linesIn_linesOf {instrs : List Instr} (hne : instrs ≠ [])
    (hlinkable : ∀ i ∈ instrs, i.IsLinkable) (imports : List String) :
    let lines := linesIn (unlines (linesOf imports instrs))
    lines.filter isImportLine = imports.map (fun _ => powerLine) ∧
      ∃ body, lines = "(module" :: imports.map (fun _ => powerLine) ++ header :: body := by
  have hpower : isImportLine powerLine = true := rfl
  have hother : isImportLine "(module" = false ∧ isImportLine header = false ∧
      isImportLine "" = false := ⟨rfl, rfl, rfl⟩
  have hbody : (bodyLines instrs).filter isImportLine = [] :=
    List.filter_eq_nil_iff.mpr fun line hline => by simp [isImportLine_of_mem_bodyLines hline]
  have himports : (imports.map fun _ => powerLine).filter isImportLine =
      imports.map fun _ => powerLine :=
    List.filter_eq_self.mpr fun line hline => by
      obtain ⟨-, -, rfl⟩ := List.mem_map.mp hline
      exact hpower
  dsimp only
  rw [linesIn_unlines_linesOf hne hlinkable]
  refine ⟨?_, _, rfl⟩
  simp only [List.cons_append, List.filter_append, List.filter_cons, List.filter_nil, hother, hbody,
    himports, Bool.false_eq_true, if_false, List.append_nil]

end ModuleText

namespace Program

open ModuleText (importLine isImportLine linesIn)

section

variable {tokens : List String} {p : Program} (h : compile tokens = .ok p)

include h

theorem imports_of_compile : p.imports = if "cpow" ∈ tokens then ["pow"] else [] := by
  obtain ⟨steps, hreads, -, rfl⟩ := compile_eq_ok_iff.mp h
  simp only [ofSteps, calledNames_eq hreads.isLinkable, hreads.call_mem_iff]

theorem eq_of_mem_imports {name : String} (hname : name ∈ p.imports) : name = "pow" := by
  rw [imports_of_compile h] at hname
  split at hname
  · exact List.mem_singleton.mp hname
  · exact absurd hname List.not_mem_nil

/-- **What is called is imported.** -/
theorem mem_imports_of_callee? {i : Instr} (hi : i ∈ p.instrs) {name : String}
    (hname : i.callee? = some name) : name ∈ p.imports := by
  obtain ⟨steps, -, -, rfl⟩ := compile_eq_ok_iff.mp h
  exact List.mem_eraseDups.mpr (List.mem_filterMap.mpr ⟨i, hi, hname⟩)

theorem linesIn_text :
    (linesIn p.text).filter isImportLine = p.imports.map (fun _ => ModuleText.powerLine) ∧
      ∃ body, linesIn p.text =
        "(module" :: p.imports.map (fun _ => ModuleText.powerLine) ++
          ModuleText.header :: body := by
  obtain ⟨steps, hreads, hd, rfl⟩ := compile_eq_ok_iff.mp h
  have hne : steps.map (·.1) ≠ [] := by
    intro hnil
    rw [List.map_eq_nil_iff.mp hnil] at hd
    exact absurd hd (by decide)
  exact ModuleText.linesIn_linesOf hne hreads.isLinkable _

/-- The module that a program is read as has the imports of the program. -/
theorem imports_programModule :
    (Wasm.programModule p.needsLibrary p.instrs).imports =
      p.imports.map fun name => ⟨Wasm.librarySource, name, ⟨2, 1⟩⟩ := by
  rw [needsLibrary, imports_of_compile h]
  split <;> rfl

/-- A call in the module that a program is read as is a call of the import of that name. -/
theorem body_programFunc :
    (Wasm.programFunc p.instrs).body = p.instrs.map (Wasm.ofInstr p.imports.idxOf) := by
  refine List.map_congr_left fun i hi => ?_
  cases i with
  | load p => rfl
  | push n => rfl
  | arith op => rfl
  | call name =>
    have hname : name ∈ p.imports := mem_imports_of_callee? h hi rfl
    obtain rfl := eq_of_mem_imports h hname
    rw [imports_of_compile h] at hname ⊢
    split at hname
    · next hcpow => rw [if_pos hcpow]; rfl
    · exact absurd hname List.not_mem_nil

end

/-- **Compiled programs have no loose ends.** The power function is imported exactly if its word is
among the tokens, and the library is needed exactly then. The text has one import line for each
import, in their order, and has all of them before the function. Whatever is called is imported, and
in the module that the text is read as, a call is a call of the import of that name. Whatever is
imported has a signature and a name under which libraries export it. So the compiler never comes to
write down an import without a signature, or something that is no instruction. -/
theorem compile_closed (tokens : List String) :
    (∀ p, compile tokens = .ok p →
        p.imports = (if "cpow" ∈ tokens then ["pow"] else []) ∧
          (p.needsLibrary = true ↔ "cpow" ∈ tokens) ∧
          p.imports.mapM importLine = .ok ((linesIn p.text).filter isImportLine) ∧
          (∃ body, linesIn p.text =
            "(module" :: (linesIn p.text).filter isImportLine ++ ModuleText.header :: body) ∧
          (∀ i ∈ p.instrs, ∀ name, i.callee? = some name → name ∈ p.imports) ∧
          (∃ m, Wasm.Module.ofBytes (Text.encode p.text) = .ok m ∧
            m.imports.map (fun i => (i.source, i.name)) = p.imports.map (Wasm.librarySource, ·) ∧
            ∀ f ∈ m.funcs, f.body = p.instrs.map (Wasm.ofInstr p.imports.idxOf)) ∧
          ∀ name ∈ p.imports, (ModuleText.librarySignatures.lookup name).isSome = true ∧
            (Wasm.libraryExports.lookup name).isSome = true) ∧
      (∀ text, compile tokens ≠ .error (.unknownInstruction text)) ∧
      ∀ name, compile tokens ≠ .error (.unknownImport name) := by
  refine ⟨fun p hp => ?_, fun text h => ?_, fun name h => ?_⟩
  · obtain ⟨hlines, hbody⟩ := linesIn_text hp
    have himports := imports_programModule hp
    rw [ModuleText.mapM_importLine fun _ hname => eq_of_mem_imports hp hname, hlines]
    refine ⟨imports_of_compile hp, needsLibrary_iff_mem hp, rfl, hbody,
      fun i hi name hname => mem_imports_of_callee? hp hi hname,
      ⟨_, Wasm.Module.ofBytes_compile hp, ?_, ?_⟩, fun name hname => ?_⟩
    · rw [himports, List.map_map]
      rfl
    · intro f hf
      obtain rfl := List.mem_singleton.mp hf
      exact body_programFunc hp
    · obtain rfl := eq_of_mem_imports hp hname
      decide
  · rcases faultAt_or_stackImbalance_of_compile h with ⟨i, token, hfault⟩ | ⟨depth, hfault⟩ <;>
      cases hfault
  · rcases faultAt_or_stackImbalance_of_compile h with ⟨i, token, hfault⟩ | ⟨depth, hfault⟩ <;>
      cases hfault

/-- Two powers in a row need one import, and a sum needs none. -/
theorem compile_closed_two_powers :
    (∃ p, compile ["p1", "p2", "cpow", "2", "cpow"] = .ok p ∧ p.imports = ["pow"] ∧
        p.needsLibrary = true ∧ ((linesIn p.text).filter isImportLine).length = 1) ∧
      ∃ p, compile ["p1", "p2", "add"] = .ok p ∧ p.imports = [] ∧ p.needsLibrary = false ∧
        (linesIn p.text).filter isImportLine = [] := by
  have hpowers : ∃ p, compile ["p1", "p2", "cpow", "2", "cpow"] = .ok p := ⟨_, rfl⟩
  have hsum : ∃ p, compile ["p1", "p2", "add"] = .ok p := ⟨_, rfl⟩
  obtain ⟨p, hp⟩ := hpowers
  obtain ⟨q, hq⟩ := hsum
  obtain ⟨himports, hneeds, hlines, -⟩ := (compile_closed _).1 p hp
  obtain ⟨himports', hneeds', hlines', -⟩ := (compile_closed _).1 q hq
  rw [if_pos (by decide)] at himports
  rw [if_neg (by decide)] at himports'
  rw [himports] at hlines
  rw [himports'] at hlines'
  refine ⟨⟨p, hp, himports, hneeds.mpr (by decide), ?_⟩, q, hq, himports', ?_,
    (Except.ok.inj hlines').symm⟩
  · rw [← Except.ok.inj hlines]
    rfl
  · exact Bool.eq_false_iff.mpr (mt hneeds'.mp (by decide))

end Program

end StackLang
