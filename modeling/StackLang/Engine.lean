import StackLang.Number.Decimal
import StackLang.Wasm.Linking

/-!
# Engines

An engine makes modules run. It links an assembled program, with an assembled library if there is
one, and gives a function of the two inputs. Either can fail: as a rule the engine says why, but
what it was given may also be of a form that nobody has thought of.

A function gives one value, or none. Programs that were compiled from tokens give integers, but an
engine is handed what the tool has made, and the tool may make anything.

The engine that comes with the language is the one in `Wasm`.

## Main definitions

* `Value`, `Value.text`: values and how they are shown
* `Engine`, `Engine.Failure`: engines and how they fail
-/

namespace StackLang

/-- A value of a function: an integer, a floating-point number, or another one, as it is shown. -/
inductive Value
  | int (n : Int)
  | float (x : Binary64)
  | other (text : String)
  deriving DecidableEq, Repr

instance : Coe Int Value := ⟨.int⟩

/-- A value as it is shown. -/
def Value.text : Value → String
  | .int n => Number.int n
  | .float x => x.text
  | .other text => text

/-- Why an engine does not go on. -/
inductive Engine.Failure
  /-- The engine says what is wrong. -/
  | told (cause : String)
  /-- Something goes wrong that the engine has no words for. -/
  | raised (text : String)
  deriving DecidableEq, Repr

/-- What makes modules run: the function that comes of a program and a library. -/
class Engine where
  link : Bytes → Option Bytes →
    Except Engine.Failure (Int × Int → Except Engine.Failure (Option Value))

/-- A call, as an engine answers it. -/
def Wasm.answer (callee : Callee) (inputs : Int × Int) :
    Except Engine.Failure (Option Value) :=
  match call callee inputs with
  | .ok result => .ok (result.map .int)
  | .error e => .error (.told e.message)

/-- The engine that comes with the language. -/
instance Wasm.engine : Engine where
  link binary library :=
    match link binary library with
    | .ok callee => .ok (answer callee)
    | .error e => .error (.told e.message)

end StackLang
