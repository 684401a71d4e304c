import StackLang.Number.Decimal

/-!
# Seconds

A span of time as it was given: a whole number of seconds stays whole when it is shown, all others
are floating-point numbers.

## Main definitions

* `Seconds`: the two kinds
* `Seconds.text`, `Seconds.brief`: the exact and the rounded form
* `Seconds.isHuge`: spans that cannot be waited for
* `Seconds.isInstant`: spans in which nothing can happen
-/

namespace StackLang

/-- A span of time in seconds. -/
inductive Seconds
  | whole (count : Int)
  | real (value : Binary64)
  deriving DecidableEq, Repr

namespace Seconds

/-- The span as a floating-point number. -/
def value : Seconds → Binary64
  | .whole n => .ofInt n
  | .real x => x

/-- The span as it was given. -/
def text : Seconds → String
  | .whole n => Number.int n
  | .real x => x.text

/-- The span in six digits. -/
def brief (s : Seconds) : String := s.value.brief

/-- Whether the span is a whole number beyond the floating-point numbers, which no clock takes. -/
def isHuge : Seconds → Bool
  | .whole n => !(Binary64.ofInt n).isFinite
  | .real _ => false

/-- Whether the wait is over before a program that was just started can do anything: the span is
below a thousandth of a second, none at all, no number, or cannot be waited for. -/
def isInstant (s : Seconds) : Bool :=
  s.isHuge || match s.value with
    | .nan => true
    | .infinite negative => negative
    | .finite negative m e =>
      negative || decide (m * 1000 * Number.twoPow e.toNat < Number.twoPow (-e).toNat)

end Seconds

end StackLang
