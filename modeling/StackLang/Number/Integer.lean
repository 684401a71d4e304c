import StackLang.Number.Numeral
import StackLang.Text.DecimalDigit

/-!
# Reading integers

An integer is written as an optional sign and decimal digits of any script; single underscores may
stand between digits. Numerals are read up to a fixed number of digits, so that reading stays
quick; signs and underscores do not count.

## Main definitions

* `Number.readDigits?`: digits with single underscores between them
* `Number.readInteger`: an optional sign and digits
-/

namespace StackLang

namespace Number

/-- The greatest number of digits that is read. -/
def maxDigits : Nat := 4300

/-- Why a text is no integer. -/
inductive IntegerError
  /-- It is not written like an integer. -/
  | malformed
  /-- It has more digits than are read. -/
  | tooLong (digits : Nat)
  deriving DecidableEq, Repr

/-- The digits from here on. A digit must come next when `due` is set: at the start and after an
underscore. -/
def digitsFrom? (due : Bool) : List Char → Option (List Nat)
  | [] => if due then none else some []
  | c :: cs =>
    if c = '_' then (if due then none else digitsFrom? true cs)
    else do
      let d ← Text.digitValue? c
      let ds ← digitsFrom? false cs
      some (d :: ds)

/-- One or more digits with single underscores between them. -/
def readDigits? (cs : List Char) : Option (List Nat) := digitsFrom? true cs

/-- The sign in front of a numeral and what follows it: whether the number is negative. -/
def readSign : List Char → Bool × List Char
  | '+' :: cs => (false, cs)
  | '-' :: cs => (true, cs)
  | cs => (false, cs)

/-- A magnitude with its sign. -/
def signed (negative : Bool) (n : Nat) : Int := if negative then -(n : Int) else (n : Int)

/-- Read an integer. -/
def readInteger (cs : List Char) : Except IntegerError Int :=
  let (negative, body) := readSign cs
  match readDigits? body with
  | none => .error .malformed
  | some ds =>
    if ds.length > maxDigits then .error (.tooLong ds.length)
    else .ok (signed negative (ofDigits ds))

end Number

end StackLang
