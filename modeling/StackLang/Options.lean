import StackLang.Text.Raw

/-!
# Options of the command line

Options stand in front of the program: `--x` sets `x`, `--no-x` unsets it, and a bare `--` ends
the options. The first argument that does not begin with two dashes ends them too. What is set
twice has the later value, in the place of the earlier one.

## Main definitions

* `Options`: names with their values
* `Options.Argument`, `Options.classify`: what one argument is
* `Options.parse`: options and program
-/

namespace StackLang

/-- Options with their values, in the order in which they were first given. -/
abbrev Options := List (RawText × Bool)

namespace Options

/-- Set an option. -/
def set (name : RawText) (value : Bool) : Options → Options
  | [] => [(name, value)]
  | (n, v) :: rest => if n = name then (n, value) :: rest else (n, v) :: set name value rest

/-- The value of an option, or a default. -/
def get (options : Options) (name : RawText) (default : Bool) : Bool :=
  (options.lookup name).getD default

/-- What an argument in front of the program is. -/
inductive Argument
  /-- It belongs to the program. -/
  | token
  /-- It ends the options. -/
  | separator
  /-- It gives an option a value. -/
  | flag (name : RawText) (value : Bool)
  deriving DecidableEq, Repr

/-- What an argument is. -/
def classify (arg : RawText) : Argument :=
  match arg.points with
  | [.char '-', .char '-'] => .separator
  | .char '-' :: .char '-' :: .char 'n' :: .char 'o' :: .char '-' :: name => .flag ⟨name⟩ false
  | .char '-' :: .char '-' :: name => .flag ⟨name⟩ true
  | _ => .token

/-- Options and program, after the options `given`. -/
def parseFrom (given : Options) : List RawText → Options × List RawText
  | [] => (given, [])
  | arg :: args =>
    match classify arg with
    | .token => (given, arg :: args)
    | .separator => (given, args)
    | .flag name value => parseFrom (given.set name value) args

/-- Options and program. -/
def parse (args : List RawText) : Options × List RawText := parseFrom [] args

end Options

end StackLang
