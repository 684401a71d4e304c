import StackLang.Path
import StackLang.Text.ShellWords

/-!
# Log records

What is told while the work goes on, as events with their data. Each has a level, the part of the
program it comes from, and a text.

## Main definitions

* `Level`: the levels, with their names and weights
* `Record`: the events
* `Record.level`, `Record.origin`, `Record.message`: what a log shows of an event
-/

namespace StackLang

/-- The levels of a log. -/
inductive Level
  | debug
  | info
  | warning
  | error
  deriving DecidableEq, Repr

namespace Level

/-- The name of a level. -/
def name : Level → String
  | .debug => "DEBUG"
  | .info => "INFO"
  | .warning => "WARNING"
  | .error => "ERROR"

/-- The weight of a level; a log shows what weighs enough. -/
def weight : Level → Nat
  | .debug => 10
  | .info => 20
  | .warning => 30
  | .error => 40

end Level

/-- An event. -/
inductive Record
  /-- A program was compiled. -/
  | compiled (instructions : Nat) (imports : List String)
  /-- A tool is about to be started. -/
  | running (argv : List String)
  /-- A tool was killed. -/
  | killed (process : Nat)
  /-- The files of an assembly are kept. -/
  | keeping (source output : Path)
  /-- A file of an assembly could not be removed. -/
  | notRemoved (path : Path)
  /-- The library is taken from a file. -/
  | prebuilt (path : Path)
  /-- A request failed for reasons that are not the program's. -/
  | failure (route : String)
  /-- An option of the command line is not known. -/
  | unknownOption (origin name : String)
  deriving DecidableEq, Repr

namespace Record

/-- The level of an event. -/
def level : Record → Level
  | .compiled .. => .debug
  | .running _ => .info
  | .killed _ => .info
  | .keeping .. => .info
  | .notRemoved _ => .warning
  | .prebuilt _ => .info
  | .failure _ => .error
  | .unknownOption .. => .warning

/-- The part of the program that an event comes from. -/
def origin : Record → String
  | .compiled .. => "rerun.core.compiler"
  | .running _ => "rerun.toolchain.assembler"
  | .killed _ => "rerun.toolchain.assembler"
  | .keeping .. => "rerun.toolchain.artifacts"
  | .notRemoved _ => "rerun.toolchain.artifacts"
  | .prebuilt _ => "rerun.toolchain.runtime"
  | .failure _ => "rerun.server.app"
  | .unknownOption origin _ => origin

/-- The text of an event, with processes written by `processText`. -/
def message (processText : Nat → String) : Record → String
  | .compiled n imports =>
    "Compiled " ++ Number.nat n ++ " rerun instruction(s), imports: "
      ++ (if imports = [] then "none" else ", ".intercalate imports)
  | .running argv => "Running " ++ ShellWords.join argv
  | .killed process => "Killed assembler process " ++ processText process
  | .keeping source output => "Keeping artifacts " ++ source.text ++ " and " ++ output.text
  | .notRemoved path => "Failed to remove artifact: " ++ path.text
  | .prebuilt path => "Using prebuilt relib from " ++ path.text
  | .failure route => "Toolchain failure on " ++ route
  | .unknownOption _ name => "Ignoring unknown option --" ++ name

end Record

end StackLang
