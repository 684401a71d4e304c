import StackLang.Tool.Basic

/-!
# A tool to try things out

A tool that does what its first argument says, for every way a tool can end: it copies, fails,
dies by a signal, leaves no output, puts directories in the place of files, or never ends. It is
the only program that can be found by its name alone; other programs are looked for at their path,
and none of them can be executed.

Arguments that are texts to write may hold backslash escapes and octal byte values.

A shell can be there beside the tool, for the one thing that the tool cannot do: to make a link.

## Main definitions

* `Tool.unescape`: the bytes of a text with escapes
* `Tool.refusal?`: why a program cannot be started
* `Tool.scripted`: the tool under a name
* `Tool.besideShell`: the tool under a name, and a shell that makes links
-/

namespace StackLang

namespace Tool

/-! ## Texts with escapes -/

/-- The byte that a letter stands for after a backslash. -/
def letterEscapes : List (Char × UInt8) :=
  [('\\', 0x5C), ('a', 0x07), ('b', 0x08), ('f', 0x0C), ('n', 0x0A), ('r', 0x0D), ('t', 0x09),
    ('v', 0x0B)]

/-- Whether a character is an octal digit. -/
def isOctal (c : Char) : Bool := '0' ≤ c && c ≤ '7'

/-- The bytes of one character. -/
def charBytes (c : Char) : Bytes := Text.encode (String.singleton c)

/-- Where the reader of escapes stands: outside, after a backslash, or after some octal digits. -/
inductive EscapeMode
  | plain
  | escape
  | octal (count value : Nat)
  deriving DecidableEq, Repr

/-- The bytes of a character outside escapes, and where the reader stands after it. -/
def plainChar (c : Char) : Bytes × EscapeMode :=
  if c = '\\' then ([], .escape) else (charBytes c, .plain)

/-- The bytes that one more character completes, and where the reader stands after it. -/
def escapeStep : EscapeMode → Char → Bytes × EscapeMode
  | .plain, c => plainChar c
  | .escape, c =>
    if isOctal c then ([], .octal 1 (c.toNat - 48))
    else match letterEscapes.lookup c with
      | some b => ([b], .plain)
      | none => (0x5C :: charBytes c, .plain)
  | .octal count value, c =>
    if isOctal c && count < 3 then ([], .octal (count + 1) (value * 8 + (c.toNat - 48)))
    else
      let (bs, mode) := plainChar c
      (UInt8.ofNat value :: bs, mode)

/-- The bytes from here on. -/
def unescapeFrom : EscapeMode → List Char → Bytes
  | .plain, [] => []
  | .escape, [] => [0x5C]
  | .octal _ value, [] => [UInt8.ofNat value]
  | mode, c :: cs =>
    let (bs, mode') := escapeStep mode c
    bs ++ unescapeFrom mode' cs

/-- The bytes of a text with escapes. -/
def unescape (s : String) : Bytes := unescapeFrom .plain s.toList

/-! ## Starting -/

/-- Whether a path text asks for a directory at its end. -/
def endsAsDirectory (s : String) : Bool :=
  match s.toList.reverse with
  | '/' :: _ => true
  | '.' :: '/' :: _ => true
  | _ => false

/-- Why a program at a path cannot be started: no file is a program. -/
def refusalAt (s : String) (t : FileTree) : Errno :=
  match t.reach (.ofString s) with
  | .error (.os e) => e.errno
  | .error .nul => .notFound
  | .ok loc =>
    match t.get? loc with
    | none => .notFound
    | some .directory => .permission
    | some _ => if endsAsDirectory s then .notDirectory else .permission

/-- Why a program cannot be started, when the only program with a name is `name`. Names that lead
to a directory of the search path, or to the one above it, are there but are no programs. -/
def refusal? (name program : String) (t : FileTree) : Option Errno :=
  if program.toList.contains '/' then some (refusalAt program t)
  else if program = name then none
  else if program = "" || program = "." || program = ".." then some .permission
  else if FileTree.isLongName program then some .nameTooLong
  else some .notFound

/-! ## Acting -/

/-- The number that an argument writes. -/
def numberOf (s : String) : Nat := Number.ofDigits (s.toList.map Number.asciiDigit)

/-- The exit code that an argument writes: only its lowest eight bits count. -/
def exitCodeOf (s : String) : Nat := numberOf s % 256

/-- A tool that writes nothing to its error channel and ends well. -/
def quiet (acts : List Act) : Process := ⟨[], acts, [], .exited 0⟩

/-- What the tool does for a mode and its arguments. -/
def behaviour (name mode : String) (args argv : List String) : Process :=
  let input := inputOf argv
  let output := outputOf argv
  let first := args.headD ""
  let second := (args[1]?).getD ""
  let copy := copyActs argv
  match mode with
  | "copy" => quiet copy
  | "extra" => quiet copy
  | "stdout" => quiet copy
  | "warn" => { quiet copy with stderr := unescape first }
  | "fail" => ⟨[], [], unescape second, .exited (exitCodeOf first)⟩
  | "failcopy" => ⟨[], copy, Text.encode "late failure", .exited (exitCodeOf first)⟩
  | "kill" => ⟨[], [], unescape second, .signalled (numberOf first)⟩
  | "noout" => quiet []
  | "empty" => quiet [.writing output]
  | "emit" => quiet [.recalling (unescape first), .writing output]
  | "dirout" => quiet [.making output]
  | "dirin" => quiet [.removing input, .making input, .writing output]
  | "rmin" => quiet (copy ++ [.removing input])
  | "hang" => ⟨[], [.writing output], [], .endless⟩
  | _ => ⟨[], [], Text.encode (name ++ ": bad mode\n"), .exited 64⟩

/-- The tool under a name. An output that is a directory is refused before anything else. -/
def scripted (name : String) : Tool := fun argv t =>
  match refusal? name (argv.headD "") t with
  | some errno => .refused errno
  | none =>
    if t.isDirectory (outputOf argv) then
      .started ⟨[], [], Text.encode (name ++ ": output is a directory\n"), .exited 65⟩
    else .started (behaviour name ((argv[1]?).getD "") (argv.drop 2) argv)

/-- The script with which the shell makes a link. The next two words of the command line are its
target and its place. -/
def linkScript : String := "/bin/ln -s $0 $1"

/-- The tool under a name, and a shell that makes links. -/
def besideShell (name : String) : Tool := fun argv t =>
  match argv with
  | "/bin/sh" :: "-c" :: script :: target :: place :: _ =>
    if script = linkScript then
      match t.makeLink (.ofString target) (.ofString place) with
      | .ok _ => .started (quiet [.linking (.ofString target) (.ofString place)])
      | .error _ => .started { quiet [] with ending := .exited 1 }
    else scripted name argv t
  | _ => scripted name argv t

end Tool

end StackLang
