import StackLang.OsError
import StackLang.Path
import StackLang.Text.Blank
import StackLang.Text.Raw

/-!
# Faults

Everything that can end a compilation, an assembly or a run without a result, as causes with
their data. The wording is in one place, `Fault.message`. Two faults repeat what was given and may
hold halves of surrogate pairs; their messages write these out, and `Fault.wording` has them as they
are.

The faults of the language and its toolchain have a kind, which is part of what callers are shown.
Faults without a kind come from below: a text that is no number, a null character in a path, a
quote left open in a command.

## Main definitions

* `ToolReport`: what is known about a tool that failed
* `Fault`: the causes
* `Fault.message`, `Fault.kind?`, `Fault.position?`: what callers are shown
* `Fault.wording`: the message with what was given as it is
-/

namespace StackLang

/-- What is known about a tool that failed. -/
structure ToolReport where
  command : List String
  returncode : Option Int
  signal : Option String
  stderr : String
  reason : Option String
  deriving DecidableEq, Repr

/-- A cause that ends the work without a result. -/
inductive Fault
  /-- The token at `index`, counted from zero, is no instruction. -/
  | invalidToken (index : Int) (text : String)
  /-- The token at `index` is no text, let alone an instruction. -/
  | garbledToken (index : Int) (token : RawText)
  /-- The token at `index` needs two values and finds `available`. -/
  | stackUnderflow (index : Int) (token : String) (available : Int)
  /-- The program ends with a depth other than one. -/
  | stackImbalance (finalDepth : Int)
  /-- Another fault of a program, in the caller's words. -/
  | program (text : String)
  /-- A file of an assembly cannot be created, written or read. -/
  | artifact (action : String) (path : Path) (cause : String)
  /-- The assembling tool failed. -/
  | tool (report : ToolReport)
  /-- A module cannot be linked. -/
  | link (cause : String)
  /-- A program trapped. -/
  | trap (cause : String)
  /-- A setting cannot be read. -/
  | configuration (text : String)
  /-- A setting is no text; the words repeat it. -/
  | garbledSetting (words : RawText)
  /-- Another fault, in the caller's words. -/
  | general (text : String)
  /-- A numeral has more digits than are read. -/
  | numeralTooLong (digits : Nat)
  /-- A text is no floating-point number. -/
  | notNumber (text : String)
  /-- A path or an argument holds a null character. -/
  | nul
  /-- A command opens a quote and does not close it. -/
  | openQuote
  /-- A command ends in a backslash. -/
  | openEscape
  /-- A listing holds something that is no instruction. -/
  | unknownInstruction (text : String)
  /-- A module imports a function that no library has. -/
  | unknownImport (name : String)
  /-- What is set as the log level is no level. -/
  | unknownLevel (text : String)
  /-- What is set as the log level could not be one. -/
  | notLevel (text : String)
  /-- A text is not UTF-8. -/
  | notUtf8
  /-- What is to be written to a file has no bytes. -/
  | unencodable (flaw : Flaw)
  /-- A reply holds a number that cannot be written. -/
  | unwritable
  /-- A reply holds half of a surrogate pair, which cannot be sent. -/
  | unsendable
  /-- A program ran and gave no result where one is needed. -/
  | noResult
  /-- The operating system refuses. -/
  | os (error : OsError)
  /-- A time limit is beyond the floating-point numbers. -/
  | hugeTimeout
  /-- The caller gave up by itself. -/
  | raised (text : String)
  /-- The work was cancelled. -/
  | cancelled
  deriving DecidableEq, Repr

namespace ToolReport

/-- The program that was run. -/
def program (r : ToolReport) : String := r.command.headD "assembler"

/-- The text of an optional text that is there and not empty. -/
def given? (s : Option String) : Option String := s.filter (· ≠ "")

/-- What the report says: the reason, else the signal, else what the tool wrote, else the exit
code. -/
def message (r : ToolReport) : String :=
  match given? r.reason, given? r.signal with
  | some reason, _ => r.program ++ " " ++ reason
  | none, some signal => r.program ++ " terminated with signal " ++ signal
  | none, none =>
    if Text.strip r.stderr ≠ "" then Text.strip r.stderr
    else r.program ++ " terminated with exit code " ++ (r.returncode.map Number.int).getD "None"

end ToolReport

namespace Fault

/-- The token at `index` as messages name it, counted from one. -/
def describe (index : Int) (token : String) : String :=
  "Rerun instruction #" ++ Number.int (index + 1) ++ " \"" ++ token ++ "\""

/-- The text of a fault. -/
def message : Fault → String
  | .invalidToken index text => describe index text ++ " is invalid."
  | .garbledToken index token => describe index token.escaped ++ " is invalid."
  | .stackUnderflow index token available =>
    describe index token ++ " requires two values on stack but there "
      ++ (if available = 1 then "is only one." else "are none.")
  | .stackImbalance d =>
    "Rerun code leaves " ++ Number.int d ++ " value(s) on stack instead of just one."
  | .program text => text
  | .artifact action path cause =>
    "Unable to " ++ action ++ " " ++ path.text ++ " (" ++ cause ++ ")"
  | .tool report => report.message
  | .link cause => "Unable to link rerun module (" ++ cause ++ ")"
  | .trap cause => "Rerun program trapped (" ++ cause ++ ")"
  | .configuration text => text
  | .garbledSetting words => words.escaped
  | .general text => text
  | .numeralTooLong digits =>
    "Exceeds the limit (4300 digits) for integer string conversion: value has "
      ++ Number.nat digits
      ++ " digits; use sys.set_int_max_str_digits() to increase the limit"
  | .notNumber text => "could not convert string to float: " ++ Text.quoted text
  | .nul => "embedded null byte"
  | .openQuote => "No closing quotation"
  | .openEscape => "No escaped character"
  | .unknownInstruction text => "Unknown rerun instruction: " ++ Text.quoted text
  | .unknownImport name => Text.quoted name
  | .unknownLevel text => "Unknown level: " ++ Text.quoted text
  | .notLevel text => "Level not an integer or a valid string: " ++ text
  | .notUtf8 => "invalid utf-8"
  | .unencodable flaw => flaw.message
  | .unwritable => "Out of range float values are not JSON compliant"
  | .unsendable => "surrogates not allowed"
  | .noResult => "The program gave no result"
  | .os error => error.message
  | .hugeTimeout => "int too large to convert to float"
  | .raised text => text
  | .cancelled => ""

/-- The text of a fault, with what was given as it is. -/
def wording : Fault → RawText
  | .garbledToken index token =>
    RawText.ofString ("Rerun instruction #" ++ Number.int (index + 1) ++ " \"") ++ token
      ++ RawText.ofString "\" is invalid."
  | .garbledSetting words => words
  | f => f.message

/-- The kind of a fault of the language or its toolchain. -/
def kind? : Fault → Option String
  | .invalidToken .. => some "invalid_token"
  | .garbledToken .. => some "invalid_token"
  | .stackUnderflow .. => some "stack_underflow"
  | .stackImbalance .. => some "stack_imbalance"
  | .program _ => some "compile_error"
  | .artifact .. => some "artifact_io"
  | .tool _ => some "assembler_failure"
  | .link _ => some "link_failure"
  | .trap _ => some "execution_trap"
  | .configuration _ => some "configuration"
  | .garbledSetting _ => some "configuration"
  | .general _ => some "error"
  | _ => none

/-- Whether the fault lies in the program itself and shows before anything is run. -/
def isProgramFault : Fault → Bool
  | .invalidToken .. => true
  | .garbledToken .. => true
  | .stackUnderflow .. => true
  | .stackImbalance .. => true
  | .program _ => true
  | _ => false

/-- The place of the token at fault, counted from one. -/
def position? : Fault → Option Int
  | .invalidToken index _ => some (index + 1)
  | .garbledToken index _ => some (index + 1)
  | .stackUnderflow index _ _ => some (index + 1)
  | _ => none

/-- A file operation that failed while doing `action` on a file of an assembly. -/
def ofFile (action : String) (path : Path) : FileError → Fault
  | .nul => .nul
  | .os error => .artifact action path error.message

end Fault

end StackLang
