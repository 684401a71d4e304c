import StackLang.Execution
import StackLang.Inputs
import StackLang.Options

/-!
# The command line

One run of the command line: options and program from the arguments, inputs from the settings, the
result on the output channel, or one error line on the error channel. The log shares the error
channel and stands before the error line.

Results and errors can be set off by colours. With `--wat` the module text is shown first, which
compiles the program once more.

## Main definitions

* `CommandLine.Invocation`: what a run depends on
* `CommandLine.Console`: what a run shows and how it ends
* `CommandLine.run`: one run
-/

namespace StackLang

namespace CommandLine

/-- What a run depends on besides the bench. -/
structure Invocation where
  settings : Settings
  tool : Tool
  args : List RawText
  /-- Whether the output channel is a terminal. -/
  terminal : Bool
  /-- What the log calls the command line. -/
  origin : String

/-- How a run ends. -/
inductive Ending
  | code (number : Nat)
  /-- Nothing was caught. -/
  | raised (fault : Fault)
  deriving DecidableEq, Repr

/-- What a run shows and how it ends. -/
structure Console where
  stdout : String
  stderr : String
  ending : Ending
  deriving DecidableEq, Repr

/-! ## The log -/

/-- The weights of the levels that can be set by name. -/
def levels : List (String × Nat) :=
  [("DEBUG", 10), ("INFO", 20), ("WARNING", 30), ("WARN", 30), ("ERROR", 40), ("CRITICAL", 50),
    ("FATAL", 50), ("NOTSET", 0)]

/-- What the log knows besides the levels: the layout of its lines, and the table of all layouts
that there are. -/
def nonLevels : List (String × Fault) :=
  [("BASIC_FORMAT", .unknownLevel "%(levelname)s:%(name)s:%(message)s"),
    ("_STYLES", .notLevel ("\x7b'%': (<class 'logging.PercentStyle'>, "
      ++ "'%(levelname)s:%(name)s:%(message)s'), "
      ++ "'\x7b': (<class 'logging.StrFormatStyle'>, "
      ++ "'\x7blevelname\x7d:\x7bname\x7d:\x7bmessage\x7d'), "
      ++ "'$': (<class 'logging.StringTemplateStyle'>, "
      ++ "'$\x7blevelname\x7d:$\x7bname\x7d:$\x7bmessage\x7d')\x7d"))]

/-- The least weight that the log shows. Unknown names count as `WARNING`; a name that is known but
is no level is a fault. -/
def threshold (level : String) : Except Fault Nat :=
  match nonLevels.lookup level with
  | some fault => .error fault
  | none => .ok ((levels.lookup level).getD 30)

/-- How times and processes are written in the log. -/
structure LogStyle where
  time : String
  process : Nat → String

/-- One line of the log. -/
def logLine (style : LogStyle) (r : Record) : String :=
  style.time ++ " " ++ r.origin ++ " " ++ r.level.name ++ " " ++ r.message style.process ++ "\n"

/-- The lines of the log that weigh enough. -/
def logText (style : LogStyle) (least : Nat) (records : List Record) : String :=
  String.join ((records.filter fun r => least ≤ r.level.weight).map (logLine style))

/-! ## Colours -/

/-- Bold, when colours are wanted. -/
def bold (color : Bool) (text : String) : String :=
  if color then "\x1b[1m" ++ text ++ "\x1b[22m" else text

/-- Bold red, when colours are wanted. -/
def red (color : Bool) (text : String) : String :=
  if color then "\x1b[31;1m" ++ text ++ "\x1b[39;22m" else text

/-! ## Runs -/

/-- The options that have a meaning. -/
def knownOptions : List RawText := ["cleanup", "wat", "color"]

/-- The options without a meaning, in the order of their names. -/
def unknownOptions (options : Options) : List RawText :=
  ((options.map (·.1)).filter fun n => !knownOptions.contains n).mergeSort RawText.isBefore

/-- The line of a result. -/
def resultLine (tokens : List RawText) (result : Option Value) : String :=
  "rerun " ++ " ".intercalate (tokens.map RawText.escaped) ++ " --> "
    ++ (result.map Value.text).getD "None"

/-- Whether a fault is reported as a line. All others are left to the caller. -/
def isReported : Fault → Bool
  | .unknownInstruction _ => false
  | .unknownImport _ => false
  | .notLevel _ => false
  | .os _ => false
  | .hugeTimeout => false
  | .raised _ => false
  | .cancelled => false
  | _ => true

/-- The module text that is shown before the result. -/
def shownText (options : Options) (tokens : List RawText) : Work String :=
  if options.get "wat" false then return (← Execution.compileRaw tokens).text else pure ""

/-- What goes to the output channel before the program runs: the inputs are read first. -/
def prepare (inv : Invocation) (options : Options) (tokens : List RawText) :
    Work ((Int × Int) × String) := do
  let inputs ← Work.ofExcept (Inputs.parseRaw inv.settings.inputs)
  let shown ← shownText options tokens
  return (inputs, shown)

/-- The session of a run: the assembler is made of the settings alone. -/
def session (inv : Invocation) : Execution.Session :=
  ⟨inv.settings, inv.tool, Assembler.create inv.settings [] "" none⟩

/-- The end of a run that failed after `shown` went to the output channel. -/
def failed (color : Bool) (shown : String) (fault : Fault) : Console :=
  if isReported fault then ⟨shown, red color fault.message ++ "\n", .code 1⟩
  else ⟨shown, "", .raised fault⟩

/-- One run, without its log. -/
def runQuiet [Engine] (inv : Invocation) (b : Bench) : Console × Bench :=
  let (options, tokens) := Options.parse inv.args
  let color := options.get "color" inv.terminal
  let cleanup := options.get "cleanup" true
  let warned := (unknownOptions options).foldl
    (fun b n => b.tell (.unknownOption inv.origin n.escaped)) b
  match (prepare inv options tokens).run.run warned with
  | (.error fault, b') => (failed color "" fault, b')
  | (.ok (inputs, shown), b') =>
    match (Execution.runRaw (session inv) cleanup tokens inputs).run.run b' with
    | (.error fault, b'') => (failed color shown fault, b'')
    | (.ok result, b'') =>
      (⟨shown ++ bold color (resultLine tokens result) ++ "\n", "", .code 0⟩, b'')

/-- One run. The log of the bench before it is not shown again. -/
def run [Engine] (style : LogStyle) (inv : Invocation) (b : Bench) : Console × Bench :=
  match threshold inv.settings.logLevel with
  | .error fault => (⟨"", "", .raised fault⟩, b)
  | .ok least =>
    let (console, b') := runQuiet inv b
    let log := logText style least (b'.log.drop b.log.length)
    ({ console with stderr := log ++ console.stderr }, b')

end CommandLine

end StackLang
