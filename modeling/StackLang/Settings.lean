import StackLang.Assembly
import StackLang.Text.Uppercase

/-!
# Settings

What can be set from outside, by variables of the environment. Every variable has a default; an
empty text for a directory or a file counts as not given. The time limit must be a number and the
command must split into words: the first is checked when the settings are read, the second when an
assembler is made of them.

## Main definitions

* `Settings`, `Settings.ofEnvironment`: the settings
* `Settings.artifactDirectory`, `Settings.prebuiltLibrary?`: derived settings
* `Assembler.create`: an assembler, with what is not given taken from the settings
-/

namespace StackLang

/-- Where the text of the library comes from. -/
inductive LibrarySource
  /-- The text that comes with the language. -/
  | bundled
  /-- The text in a file. -/
  | file (path : Path)
  deriving DecidableEq, Repr

/-- The settings. -/
structure Settings where
  assembler : String
  timeout : Binary64
  artifactDir : String
  libraryWasm : String
  inputs : RawText
  logLevel : String
  librarySource : LibrarySource
  /-- The directory for files that nobody asked to be elsewhere. -/
  temporary : String
  deriving DecidableEq, Repr

namespace Settings

/-- Read the settings from variables. -/
def ofEnvironment (temporary : String) (env : List (String × String)) :
    Except Fault Settings := do
  let get := fun name default => (env.lookup name).getD default
  let timeoutText := get "RERUN_ASSEMBLER_TIMEOUT_S" "30"
  let timeout ← match Binary64.ofText? timeoutText with
    | some x => pure x
    | none => throw (.notNumber timeoutText)
  return {
    assembler := get "RERUN_ASSEMBLER" "wat2wasm"
    timeout
    artifactDir := get "RERUN_ARTIFACT_DIR" ""
    libraryWasm := get "RERUN_STDLIB_WASM" ""
    inputs := get "RERUN_INPUTS" "665,1"
    logLevel := Text.upper (get "RERUN_LOG_LEVEL" "WARNING")
    librarySource := .bundled
    temporary }

/-- The directory that assemblies work in. -/
def artifactDirectory (s : Settings) : Path :=
  .ofString (if s.artifactDir = "" then s.temporary else s.artifactDir)

/-- The file with an assembled library, if one is set. -/
def prebuiltLibrary? (s : Settings) : Option Path :=
  if s.libraryWasm = "" then none else some (.ofString s.libraryWasm)

/-- The command of the assembling tool, split into words. -/
def command (s : Settings) : Except Fault (List String) :=
  match ShellWords.split s.assembler with
  | .ok words => .ok words
  | .error .openQuote => .error .openQuote
  | .error .openEscape => .error .openEscape

end Settings

/-- An assembler. An empty command or directory counts as not given. -/
def Assembler.create (s : Settings) (command : List String) (directory : String)
    (timeout : Option Seconds) : Except Fault Assembler := do
  let command ← if command = [] then s.command else pure command
  return {
    command
    directory := if directory = "" then s.artifactDirectory else .ofString directory
    timeout := timeout.getD (.real s.timeout) }

end StackLang
