import StackLang.Number.Numeral

/-!
# Names for staged files

Every assembly works under a name of its own. A counter gives numbered names; a fresh namer gives
names that other namers are not expected to give, made of 32 hexadecimal digits.

## Main definitions

* `Namer`: the two ways to name
* `Namer.draw`: the next name, and the namer after it
-/

namespace StackLang

/-- A source of names. -/
inductive Namer
  /-- Numbered names from `next` on. -/
  | counter (stem : String) (next : Int)
  /-- Names by 32 hexadecimal digits, from an unforeseeable seed on. -/
  | fresh (stem : String) (seed : Nat)
  deriving DecidableEq, Repr

namespace Namer

/-- The stem of the names when none is asked for. -/
def defaultStem : String := "rerun"

/-- The next name, and the namer after it. -/
def draw : Namer → String × Namer
  | .counter stem n => (stem ++ "-" ++ Number.int n, .counter stem (n + 1))
  | .fresh stem seed =>
    (stem ++ "-" ++ Number.hex 32 (seed % Number.twoPow 128), .fresh stem (seed + 1))

/-- The next `count` names. -/
def drawMany : (count : Nat) → Namer → List String
  | 0, _ => []
  | count + 1, namer => namer.draw.1 :: drawMany count namer.draw.2

end Namer

end StackLang
