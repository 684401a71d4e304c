import StackLang.Number.Integer
import StackLang.Text.Fields
import StackLang.Wasm.Basic
import StackLang.Wasm.Sexp

/-!
# Reading modules

A module is given as bytes. Bytes that begin with a zero, or none at all, are taken for the binary
format, of which only the header is read; all others are module text.

The text is read in three steps. Trees become fields, which still use names. The words of a
function body are grouped, each operation with its arguments, and blocks are closed one after the
other. Last, names are replaced by numbers.

## Main definitions

* `Wasm.LoadError`: why bytes are no module
* `Wasm.readBody?`: the operations of a function body
* `Wasm.Field`, `Wasm.Module.ofFields?`: the fields of a module
* `Wasm.Module.ofBytes`: the module that bytes hold
-/

namespace StackLang

namespace Wasm

/-- What is wrong with the beginning of a module text. -/
inductive TextFault
  /-- Something other than an opening parenthesis. -/
  | notOpening
  /-- Nothing at all. -/
  | noField
  deriving DecidableEq, Repr

/-- A place in a text: line and column counted from one, and the line itself. -/
structure Place where
  line : Nat
  column : Nat
  lineText : String
  deriving DecidableEq, Repr

/-- Why bytes are no module. -/
inductive LoadError
  /-- The header ends too early. -/
  | endOfFile (offset : Nat)
  /-- The header does not begin as it should. -/
  | badMagic
  /-- The header names another version. -/
  | unknownVersion (version : Nat)
  /-- The binary module holds more than its header. -/
  | binarySections
  /-- The text is not UTF-8. -/
  | notUtf8
  /-- The text does not begin as a module. -/
  | text (fault : TextFault) (place : Place)
  /-- The text is no module. -/
  | malformed
  deriving DecidableEq, Repr

/-! ## Messages -/

/-- A reason and what caused it. -/
def withCause (reason cause : String) : String :=
  reason ++ "\n\nCaused by:\n    " ++ cause ++ "\n"

/-- A text set to the right of a field of the given width. -/
def alignRight (width : Nat) (cs : List Char) : List Char :=
  List.replicate (width - cs.length) ' ' ++ cs

/-- A message with the line it is about and a mark below the column. -/
def Place.render (p : Place) (message : String) : String :=
  message ++ "\n     --> <anon>:" ++ Number.nat p.line ++ ":" ++ Number.nat p.column
    ++ "\n      |\n " ++ String.ofList (alignRight 4 (Number.natChars p.line)) ++ " | "
    ++ p.lineText ++ "\n      | " ++ String.ofList (alignRight p.column ['^'])

/-- What a fault at the beginning of a text is called. -/
def TextFault.text : TextFault → String
  | .notOpening => "expected \x60(\x60"
  | .noField => "expected at least one module field"

/-- The text of a load error. -/
def LoadError.message : LoadError → String
  | .endOfFile offset =>
    withCause "failed to parse WebAssembly module"
      ("unexpected end-of-file (at offset 0x" ++ Number.hex 1 offset ++ ")")
  | .badMagic =>
    withCause "failed to parse WebAssembly module"
      "magic header not detected: bad magic number (at offset 0x0)"
  | .unknownVersion version =>
    withCause "failed to parse WebAssembly module"
      ("unknown binary version: "
        ++ String.ofList (alignRight 10 ("0x" ++ Number.hex 1 version).toList)
        ++ " (at offset 0x4)")
  | .binarySections =>
    withCause "failed to parse WebAssembly module" "unexpected section (at offset 0x8)"
  | .notUtf8 => "input was not valid utf-8"
  | .text fault place => place.render fault.text
  | .malformed => "expected valid module field"

/-! ## Function bodies -/

/-- Whether a word is an argument of the operation before it: a name or a number. -/
def isArgument (w : String) : Bool :=
  match w.toList with
  | c :: _ => c = '$' || c = '-' || c = '+' || c.isDigit
  | [] => false

/-- One more word in front: an argument waits for its operation, an operation takes the arguments
that wait. -/
def groupWord (w : String) (state : List String × List (String × List String)) :
    List String × List (String × List String) :=
  if isArgument w then (w :: state.1, state.2) else ([], (w, state.1) :: state.2)

/-- Operations with their arguments; `none` when the words begin with an argument. -/
def groupWords? (words : List String) : Option (List (String × List String)) :=
  match words.foldr groupWord ([], []) with
  | ([], groups) => some groups
  | _ => none

/-- A name without the sign in front of it. -/
def nameOf? (w : String) : Option String :=
  match w.toList with
  | '$' :: cs => some (String.ofList cs)
  | _ => none

/-- The number that a word stands for among things with these names. -/
def resolve? (names : List (Option String)) (w : String) : Option Nat :=
  match nameOf? w with
  | some name => names.idxOf? (some name)
  | none =>
    if w.toList.all Char.isDigit && w ≠ "" then
      some (Number.ofDigits (w.toList.map Number.asciiDigit))
    else none

/-- The integer that a word writes. -/
def constant? (w : String) : Option Int :=
  match Number.readInteger w.toList with
  | .ok n => some n
  | .error _ => none

/-- The names that a function body can use. -/
structure Scope where
  funcs : List (Option String)
  locals : List (Option String)

/-- The operations without an argument. -/
def plainOps : List (String × Op) :=
  [("unreachable", .unreachable), ("i32.eqz", .eqz), ("i32.add", .word .add),
    ("i32.sub", .word .sub), ("i32.mul", .word .mul), ("i32.div_u", .word .divU),
    ("i32.rem_u", .word .remU), ("i32.and", .word .and), ("i32.shr_u", .word .shrU)]

/-- The operation that a word and its arguments write, inside blocks with these labels. -/
def operation? (scope : Scope) (labels : List (Option String)) :
    String × List String → Option Op
  | (w, []) => plainOps.lookup w
  | (w, [x]) =>
    if w = "local.get" then (resolve? scope.locals x).map .localGet
    else if w = "local.set" then (resolve? scope.locals x).map .localSet
    else if w = "i32.const" then (constant? x).map fun n => .const (Word.ofInteger n)
    else if w = "call" then (resolve? scope.funcs x).map .call
    else if w = "br" then (resolve? labels x).map .br
    else if w = "br_if" then (resolve? labels x).map .brIf
    else none
  | _ => none

/-- The kinds of blocks. The second branch of a condition keeps the first one. -/
inductive BlockKind
  | block
  | loop
  | onTrue
  | onFalse (onTrue : List Op)

/-- A block that is not closed yet, with the operations before it in reverse. -/
structure OpenBlock where
  kind : BlockKind
  label : Option String
  before : List Op

/-- The operation that a block with this body is. -/
def OpenBlock.close (b : OpenBlock) (body : List Op) : Op :=
  match b.kind with
  | .block => .block body
  | .loop => .loop body
  | .onTrue => .cond body []
  | .onFalse onTrue => .cond onTrue body

/-- The words that open a block. -/
def blockKinds : List (String × BlockKind) :=
  [("block", .block), ("loop", .loop), ("if", .onTrue)]

/-- The label in the arguments of a block: at most one name. -/
def blockLabel? : List String → Option (Option String)
  | [] => some none
  | [x] => (nameOf? x).map some
  | _ => none

/-- The operations of a body. `opened` are the open blocks, the innermost one first, and `done`
are the operations of the innermost one, in reverse. -/
def readOps? (scope : Scope) : (opened : List OpenBlock) → (done : List Op) →
    List (String × List String) → Option (List Op)
  | [], done, [] => some done.reverse
  | _ :: _, _, [] => none
  | opened, done, (w, args) :: groups =>
    if w = "end" then
      match opened with
      | b :: outer => readOps? scope outer (b.close done.reverse :: b.before) groups
      | [] => none
    else if w = "else" then
      match opened with
      | ⟨.onTrue, label, before⟩ :: outer =>
        readOps? scope (⟨.onFalse done.reverse, label, before⟩ :: outer) [] groups
      | _ => none
    else match blockKinds.lookup w with
      | some kind =>
        match blockLabel? args with
        | some label => readOps? scope (⟨kind, label, done⟩ :: opened) [] groups
        | none => none
      | none =>
        match operation? scope (opened.map (·.label)) (w, args) with
        | some op => readOps? scope opened (op :: done) groups
        | none => none

/-- The operations that the words of a body write. -/
def readBody? (scope : Scope) (words : List String) : Option (List Op) := do
  readOps? scope [] [] (← groupWords? words)

/-! ## Fields -/

/-- What stands in front of the body of a function. -/
structure Header where
  exports : List String := []
  params : List (Option String) := []
  results : Nat := 0
  locals : List (Option String) := []
  deriving Repr

/-- The signature in a header. -/
def Header.signature (h : Header) : Signature := ⟨h.params.length, h.results⟩

/-- One field of a module. -/
inductive Field
  | imports (source name : String) (ident : Option String) (signature : Signature)
  | func (ident : Option String) (header : Header) (body : List String)
  | exports (name ref : String)
  | start (ref : String)
  deriving Repr

/-- The words of some trees, which must all be words. -/
def words? (items : List Sexp) : Option (List String) :=
  items.mapM fun
    | .word w => some w
    | _ => none

/-- The names of variables that are all 32-bit words: one with a name, or several without. -/
def variables? (items : List Sexp) : Option (List (Option String)) := do
  match ← words? items with
  | [w, "i32"] =>
    match nameOf? w with
    | some name => some [some name]
    | none => if w = "i32" then some [none, none] else none
  | ws => if ws.all (· = "i32") then some (ws.map fun _ => none) else none

/-- A header with one more part. -/
def Header.add? (h : Header) (kind : String) (items : List Sexp) : Option Header :=
  if kind = "param" then
    (variables? items).map fun vs => { h with params := h.params ++ vs }
  else if kind = "result" then
    (variables? items).map fun vs => { h with results := h.results + vs.length }
  else if kind = "local" then
    (variables? items).map fun vs => { h with locals := h.locals ++ vs }
  else if kind = "export" then
    match items with
    | [.string name] => some { h with exports := h.exports ++ [name] }
    | _ => none
  else none

/-- A header and the words of the body after it. -/
def readHeader? (h : Header) : List Sexp → Option (Header × List String)
  | .list (.word kind :: items) :: rest =>
    match h.add? kind items with
    | some h' => readHeader? h' rest
    | none => none
  | rest => (words? rest).map fun ws => (h, ws)

/-- The name at the front of some trees, if there is one, and the rest. -/
def takeName : List Sexp → Option String × List Sexp
  | .word w :: rest =>
    match nameOf? w with
    | some name => (some name, rest)
    | none => (none, .word w :: rest)
  | rest => (none, rest)

/-- The field that a tree is. -/
def field? : Sexp → Option Field
  | .list [.word "import", .string source, .string name, .list (.word "func" :: items)] => do
    let (ident, rest) := takeName items
    let (header, body) ← readHeader? {} rest
    if body = [] then some (.imports source name ident header.signature) else none
  | .list (.word "func" :: items) => do
    let (ident, rest) := takeName items
    let (header, body) ← readHeader? {} rest
    some (.func ident header body)
  | .list [.word "export", .string name, .list [.word "func", .word ref]] =>
    some (.exports name ref)
  | .list [.word "start", .word ref] => some (.start ref)
  | _ => none

/-! ## Modules -/

/-- The name of the function that a field imports. -/
def Field.importedName? : Field → Option (Option String)
  | .imports _ _ name _ => some name
  | _ => none

/-- The name of the function that a field defines. -/
def Field.definedName? : Field → Option (Option String)
  | .func name _ _ => some name
  | _ => none

/-- The names of all functions, the imported ones first. -/
def funcNames (fields : List Field) : List (Option String) :=
  fields.filterMap Field.importedName? ++ fields.filterMap Field.definedName?

/-- Add a field to a module of which all functions are called `names`. -/
def Module.add? (names : List (Option String)) (m : Module) : Field → Option Module
  | .imports source name _ signature =>
    some { m with imports := m.imports ++ [⟨source, name, signature⟩] }
  | .func ident header body => do
    let ops ← readBody? ⟨names, header.params ++ header.locals⟩ body
    let index := m.imports.length + m.funcs.length
    some { m with
      funcs := m.funcs ++ [⟨ident, header.signature, header.locals.length, ops⟩]
      exports := m.exports ++ header.exports.map (·, index) }
  | .exports name ref =>
    (resolve? names ref).map fun i => { m with exports := m.exports ++ [(name, i)] }
  | .start ref => (resolve? names ref).map fun i => { m with start := some i }

/-- The module that fields make up. -/
def Module.ofFields? (fields : List Field) : Option Module :=
  fields.foldlM (Module.add? (funcNames fields)) .empty

/-- The module that a text writes, if it is well-formed. -/
def Module.ofTrees? : List Sexp → Option Module
  | [.list (.word "module" :: items)] => do
    let (_, rest) := takeName items
    Module.ofFields? (← rest.mapM field?)
  | _ => none

/-- The place of the character at `offset`. -/
def placeOf (cs : List Char) (offset : Nat) : Place :=
  let before := Text.fields '\n' (cs.take offset)
  let line := before.length
  let lineText := ((Text.fields '\n' cs)[line - 1]?).getD []
  ⟨line, (before.getLastD []).length + 1, String.ofList lineText⟩

/-- The module that a text writes. -/
def Module.ofText (cs : List Char) : Except LoadError Module :=
  let lead := leadLength cs
  match cs.drop lead with
  | [] => .error (.text .noField (placeOf cs lead))
  | '(' :: _ =>
    match (trees? cs).bind Module.ofTrees? with
    | some m => .ok m
    | none => .error .malformed
  | _ => .error (.text .notOpening (placeOf cs lead))

/-- The header of the binary format. -/
def magic : Bytes := [0x00, 0x61, 0x73, 0x6D]

/-- The number that bytes write, the lowest byte first. -/
def littleEndian (bs : Bytes) : Nat := bs.foldr (fun b n => b.toNat + 256 * n) 0

/-- The module that bytes in the binary format hold. -/
def Module.ofBinary (bs : Bytes) : Except LoadError Module :=
  if bs.length < 4 then .error (.endOfFile 0)
  else if bs.take 4 ≠ magic then .error .badMagic
  else if bs.length < 8 then .error (.endOfFile 4)
  else
    let version := littleEndian ((bs.drop 4).take 4)
    if version ≠ 1 then .error (.unknownVersion version)
    else if bs.length = 8 then .ok .empty
    else .error .binarySections

/-- The module that bytes hold. -/
def Module.ofBytes (bs : Bytes) : Except LoadError Module :=
  match bs with
  | [] => Module.ofBinary []
  | b :: _ =>
    if b = 0 then Module.ofBinary bs
    else match Text.decode? bs with
      | some s => Module.ofText s.toList
      | none => .error .notUtf8

end Wasm

end StackLang
