import StackLang.CommandLine

/-!
# The program

Reads the settings from the environment, runs the command line once and shows what it says. Files
are held in memory, and module texts are run as they are: the assembling tool is the one that hands
its input on.
-/

open StackLang

/-- The variables that the settings are read from. -/
def settingVariables : List String :=
  ["RERUN_ASSEMBLER", "RERUN_ASSEMBLER_TIMEOUT_S", "RERUN_ARTIFACT_DIR", "RERUN_STDLIB_WASM",
    "RERUN_INPUTS", "RERUN_LOG_LEVEL"]

/-- The variables that are set. -/
def readVariables : IO (List (String × String)) := do
  let mut found := []
  for name in settingVariables do
    if let some value ← IO.getEnv name then found := found ++ [(name, value)]
  return found

/-- A bench with nothing but a directory for temporary files. -/
def emptyBench (seed : Nat) : Bench :=
  { files := { entries := [(["tmp"], .directory)], here := ["tmp"] }
    namer := .fresh Namer.defaultStem seed }

/-- Show what a run says; what was not caught is an error of its own. -/
def showConsole (console : CommandLine.Console) : IO UInt32 := do
  (← IO.getStdout).putStr console.stdout
  (← IO.getStderr).putStr console.stderr
  match console.ending with
  | .code n => return UInt32.ofNat n
  | .raised fault =>
    (← IO.getStderr).putStrLn fault.message
    return 1

/-- Run the command line. -/
def main (args : List String) : IO UInt32 := do
  match Settings.ofEnvironment "/tmp" (← readVariables) with
  | .error fault =>
    (← IO.getStderr).putStrLn fault.message
    return 1
  | .ok settings =>
    let invocation : CommandLine.Invocation :=
      { settings, tool := Tool.copying, args := args.map .ofString,
        terminal := ← (← IO.getStdout).isTty, origin := "rerun.cli" }
    let time := Number.nat (← IO.monoMsNow)
    let seed ← IO.rand 0 (Number.twoPow 62)
    showConsole (CommandLine.run ⟨time, Number.nat⟩ invocation (emptyBench seed)).1
