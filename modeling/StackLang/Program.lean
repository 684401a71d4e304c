import StackLang.ModuleText
import StackLang.Token

/-!
# Programs

Compiling a list of tokens. Each token is classified and its effect on the depth of the stack is
checked before the next token is looked at, so the first fault wins. At the end exactly one value
must be left.

The compiled program keeps the depth after each instruction, the library functions it calls in
the order of first use, and the module text.

Tokens may come as raw texts. One that is no text is no instruction, and this shows when the tokens
before it have been read.

## Main definitions

* `Program`: a compiled program
* `Program.stackEffect`: the depth after one entry
* `Program.scan`: instructions and depths of a list of tokens
* `Program.compile`: the whole way to the module text
* `Program.textsOf`, `Program.compileRaw`: the same for raw tokens
-/

namespace StackLang

/-- A compiled program. -/
structure Program where
  tokens : List String
  instrs : List Instr
  depths : List Int
  imports : List String
  text : String
  deriving DecidableEq, Repr

namespace Program

/-- The depth after the entry that stands at `index` and was written as `token`. -/
def stackEffect (entry : Entry) (depth index : Int) (token : String) : Except Fault Int :=
  match entry with
  | .unknown text => .error (.unknownInstruction text)
  | .instr i =>
    if depth < i.pops then .error (.stackUnderflow index token depth)
    else .ok (depth - i.pops + i.pushes)

/-- The instructions of the tokens from `index` on, each with the depth after it, starting at
`depth`. -/
def scan (index : Nat) (depth : Int) : List String → Except Fault (List (Instr × Int))
  | [] => .ok []
  | token :: tokens => do
    let i ← Token.classify token index
    let d ← stackEffect (.instr i) depth index token
    let rest ← scan (index + 1) d tokens
    return (i, d) :: rest

/-- The depth after the last of some steps. -/
def finalDepth (steps : List (Instr × Int)) : Int := (steps.map (·.2)).getLastD 0

/-- The library functions that instructions call, in the order of first use. -/
def calledNames (instrs : List Instr) : List String := (instrs.filterMap Instr.callee?).eraseDups

/-- Compile a list of tokens. -/
def compile (tokens : List String) : Except Fault Program := do
  let steps ← scan 0 0 tokens
  let depth := finalDepth steps
  if depth ≠ 1 then throw (.stackImbalance depth)
  let instrs := steps.map (·.1)
  let imports := calledNames instrs
  let text ← ModuleText.render imports (instrs.map .instr)
  return { tokens, instrs, depths := steps.map (·.2), imports, text }

/-- Whether the program needs the library of functions. -/
def needsLibrary (p : Program) : Bool := p.imports ≠ []

/-! ## Raw tokens -/

/-- The texts that raw tokens begin with, and the first token that is no text. -/
def leadingTexts : List RawText → List String × Option RawText
  | [] => ([], none)
  | token :: tokens =>
    match token.text? with
    | some text => (text :: (leadingTexts tokens).1, (leadingTexts tokens).2)
    | none => ([], some token)

/-- Raw tokens as texts. The first one that is no text is a fault, unless there is one before it. -/
def textsOf (tokens : List RawText) : Except Fault (List String) :=
  match leadingTexts tokens with
  | (texts, none) => .ok texts
  | (texts, some token) =>
    match scan 0 0 texts with
    | .ok _ => .error (.garbledToken texts.length token)
    | .error f => .error f

/-- Compile a list of raw tokens. -/
def compileRaw (tokens : List RawText) : Except Fault Program := do compile (← textsOf tokens)

end Program

end StackLang
