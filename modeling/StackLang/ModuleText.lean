import StackLang.Fault
import StackLang.Instr

/-!
# Module text

A program is written as the text of a WebAssembly module: a line for each import, one function
with a line for each instruction, and its export. The parenthesis that closes the function stands
at the end of its last line, so a function without instructions ends on its own first line.

Listings may hold entries that are no instruction, and imports may name a function that no library
has. Both are refused, the imports first.

## Main definitions

* `Entry`: one entry of a listing
* `ModuleText.librarySignatures`: the functions that can be imported
* `ModuleText.render`: the text of a module
-/

namespace StackLang

/-- One entry of a listing: an instruction, or a text that is none. -/
inductive Entry
  | instr (instr : Instr)
  | unknown (text : String)
  deriving DecidableEq, Repr

namespace ModuleText

/-- The functions that can be imported, with their signatures. -/
def librarySignatures : List (String × String) :=
  [("pow", "(param i32 i32) (result i32)")]

/-- The line that imports a function. -/
def importLine (name : String) : Except Fault String :=
  match librarySignatures.lookup name with
  | some signature =>
    .ok ("  (import \"stdlib\" \"" ++ name ++ "\" (func $" ++ name ++ " " ++ signature ++ "))")
  | none => .error (.unknownImport name)

/-- The line of one entry, indented. -/
def entryLine : Entry → Except Fault String
  | .instr i => .ok ("    " ++ i.text)
  | .unknown text => .error (.unknownInstruction text)

/-- The line that opens the function. -/
def header : String := "  (func $compute (param $p1 i32) (param $p2 i32) (result i32)"

/-- Close the parenthesis of a function at the end of its last line. -/
def closeLast : List String → List String
  | [] => []
  | [line] => [line ++ ")"]
  | line :: lines => line :: closeLast lines

/-- Lines as one text, each with its line break. -/
def unlines (lines : List String) : String := String.join (lines.map (· ++ "\n"))

/-- The text of the module with these imports and these entries. -/
def render (imports : List String) (entries : List Entry) : Except Fault String := do
  let importLines ← imports.mapM importLine
  let body ← entries.mapM entryLine
  return unlines
    ("(module" :: importLines ++ closeLast (header :: body)
      ++ ["  (export \"compute\" (func $compute))", ")"])

end ModuleText

end StackLang
