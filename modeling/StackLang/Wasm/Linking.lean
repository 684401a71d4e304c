import StackLang.Text.Quoted
import StackLang.Wasm.Machine
import StackLang.Wasm.Reader

/-!
# Linking

A module becomes an instance when each function it imports has been found with the type it was
declared with, and its start function has run. The functions of an instance call each other through
the instance, so a budget bounds how deep calls go.

A program is linked in a fixed order: first the library, if there is one, which must export the
functions that programs can import; then the program, which must export `compute`.

## Main definitions

* `Wasm.Instance`: a module with its imports
* `Wasm.LinkError`: why a program cannot be linked
* `Wasm.link`: a program and its library
* `Wasm.call`: the linked program applied to its inputs
-/

namespace StackLang

namespace Wasm

/-- How often a loop goes around and how deep calls go, at most. -/
def budget : Nat := 4294967296

/-- A module with the functions it imports. -/
structure Instance where
  imported : List Callee
  code : Module

/-- A function of an instance, for calls that go `depth` deep. -/
def Instance.callee? (inst : Instance) : (depth : Nat) → Nat → Option Callee
  | 0, i =>
    if i < inst.imported.length then inst.imported[i]?
    else (inst.code.funcs[i - inst.imported.length]?).map fun f =>
      ⟨f.signature, fun _ => .endless⟩
  | depth + 1, i =>
    if i < inst.imported.length then inst.imported[i]?
    else (inst.code.funcs[i - inst.imported.length]?).map fun f =>
      ⟨f.signature, fun args => f.run (inst.callee? depth) (depth + 1) i args⟩

/-- The function that an instance exports under a name. -/
def Instance.export? (inst : Instance) (name : String) : Option Callee := do
  inst.callee? budget (← inst.code.exports.lookup name)

/-- Why a program cannot be linked. -/
inductive LinkError
  | load (error : LoadError)
  | unknownImport (source name : String)
  | incompatibleImport (source name : String) (expected found : Signature)
  | missingExport (name : String)
  | trap (trap : Trap)
  /-- The start function is not well-formed or does not come to an end. -/
  | badStart
  deriving DecidableEq, Repr

/-- A function that modules can import. -/
structure Definition where
  source : String
  name : String
  callee : Callee

/-- The function for an import. -/
def resolveImport (defs : List Definition) (i : Import) : Except LinkError Callee :=
  match defs.find? fun d => d.source = i.source && d.name = i.name with
  | none => .error (.unknownImport i.source i.name)
  | some d =>
    if d.callee.signature = i.signature then .ok d.callee
    else .error (.incompatibleImport i.source i.name i.signature d.callee.signature)

/-- Run the start function of an instance. -/
def Instance.runStart (inst : Instance) : Except LinkError Unit :=
  match inst.code.start with
  | none => .ok ()
  | some i =>
    match inst.callee? budget i with
    | none => .error .badStart
    | some c =>
      match c.run [] with
      | .values _ => .ok ()
      | .trap t => .error (.trap t)
      | _ => .error .badStart

/-- The instance of a module among some definitions. -/
def instantiate (defs : List Definition) (m : Module) : Except LinkError Instance := do
  let imported ← m.imports.mapM (resolveImport defs)
  let inst : Instance := ⟨imported, m⟩
  inst.runStart
  return inst

/-- The instance of the module that bytes hold. -/
def instantiateBytes (defs : List Definition) (bs : Bytes) : Except LinkError Instance :=
  match Module.ofBytes bs with
  | .ok m => instantiate defs m
  | .error e => .error (.load e)

/-- The function that an instance must export. -/
def Instance.exported (inst : Instance) (name : String) : Except LinkError Callee :=
  match inst.export? name with
  | some c => .ok c
  | none => .error (.missingExport name)

/-- Where programs import library functions from. -/
def librarySource : String := "stdlib"

/-- The functions that programs can import, and the names under which a library exports them. -/
def libraryExports : List (String × String) := [("pow", "exponentiate")]

/-- The definitions that a library gives to programs. -/
def libraryDefinitions (library : Bytes) : Except LinkError (List Definition) := do
  let inst ← instantiateBytes [] library
  libraryExports.mapM fun (name, exported) => do
    return ⟨librarySource, name, ← inst.exported exported⟩

/-- Link a program and its library, if it has one: the function that the program computes. -/
def link (program : Bytes) (library : Option Bytes) : Except LinkError Callee := do
  let defs ← match library with
    | some bs => libraryDefinitions bs
    | none => pure []
  let inst ← instantiateBytes defs program
  inst.exported "compute"

/-! ## Calls -/

/-- Why a call gives no result. -/
inductive CallError
  | parameterCount (given expected : Nat)
  | trap (trap : Trap)
  | stuck
  | endless
  deriving DecidableEq, Repr

/-- Call a linked program. Inputs are taken modulo the number of words, and the result is read with
its sign; a function without a result gives none. -/
def call (callee : Callee) (inputs : Int × Int) : Except CallError (Option Int) :=
  if callee.signature.params ≠ 2 then .error (.parameterCount 2 callee.signature.params)
  else match callee.run [Word.ofInteger inputs.1, Word.ofInteger inputs.2] with
    | .values ws => .ok (ws.head?.map Word.toSigned)
    | .trap t => .error (.trap t)
    | .stuck => .error .stuck
    | .endless => .error .endless

/-! ## Messages -/

/-- What a trap is called. -/
def TrapCause.text : TrapCause → String
  | .divideByZero => "integer divide by zero"
  | .unreachable => "wasm \x60unreachable\x60 instruction executed"

/-- A function in a backtrace. Code addresses are not kept. -/
def TrapFrame.text (position : Nat) (f : TrapFrame) : String :=
  "\n    " ++ Number.nat position ++ ": 0x? - <unknown>!"
    ++ f.name.getD ("<wasm function " ++ Number.nat f.index ++ ">")

/-- The text of a trap. -/
def Trap.message (t : Trap) : String :=
  withCause
    ("error while executing at wasm backtrace:"
      ++ String.join (t.frames.zipIdx.map fun (f, i) => f.text i))
    ("wasm trap: " ++ t.cause.text)

/-- A function of a module as messages name it. -/
def qualified (source name : String) : String := "\x60" ++ source ++ "::" ++ name ++ "\x60"

/-- The text of a link error. -/
def LinkError.message : LinkError → String
  | .load e => e.message
  | .unknownImport source name =>
    "unknown import: " ++ qualified source name ++ " has not been defined"
  | .incompatibleImport source name expected found =>
    withCause ("incompatible import type for " ++ qualified source name)
      ("types incompatible: expected type \x60" ++ expected.text ++ "\x60, found type \x60"
        ++ found.text ++ "\x60")
  | .missingExport name => Text.quoted name
  | .trap t => t.message
  | .badStart => "start function does not end"

/-- The text of a call error. -/
def CallError.message : CallError → String
  | .parameterCount given expected =>
    (if expected < given then "too many" else "too few") ++ " parameters provided: given "
      ++ Number.nat given ++ ", expected " ++ Number.nat expected
  | .trap t => t.message
  | .stuck => "type mismatch"
  | .endless => "interrupted"

end Wasm

end StackLang
