import StackLang.Number.Binary64
import StackLang.Number.Integer
import StackLang.Text.Fields

/-!
# Numerals in requests

Inputs may be sent as texts. A plain numeral is `0`, or digits that do not begin with a zero, at
most with a minus sign in front. Any other text is tidied up into a plain numeral first, if that is
possible:

* blanks at both ends and a plus sign are dropped;
* zeros in front are dropped, together with underscores among them, and a minus sign may also
  stand right after them;
* a fraction of zeros is dropped;
* single underscores are dropped.

Plain numerals are read up to a fixed length. A text that begins with a longer one is too large,
while one that is too long only after being tidied up is no numeral.

## Main definitions

* `Service.plainInteger?`: the integer that a plain numeral writes
* `Service.tidy?`: the plain numeral that a text stands for
* `Service.isOverlong`: whether a text begins with a plain numeral that is too long
-/

namespace StackLang

namespace Service

/-! ## Plain numerals -/

/-- The greatest length of a plain numeral, with its sign. -/
def maxNumeralLength : Nat := 4300

/-- The number that digits write, if no needless zero is in front. -/
def plainNatural? (cs : List Char) : Option Nat :=
  match cs with
  | [] => none
  | c :: rest =>
    if cs.all Char.isDigit && (c ≠ '0' || rest = []) then
      some (Number.ofDigits (cs.map Number.asciiDigit))
    else none

/-- The integer that a plain numeral writes. -/
def plainInteger? (cs : List Char) : Option Int :=
  if cs.length > maxNumeralLength then none
  else match cs with
    | '-' :: digits => (plainNatural? digits).map fun n => -(n : Int)
    | digits => (plainNatural? digits).map fun n => (n : Int)

/-- Whether a text begins with digits, the first of them no zero, that are too many for a plain
numeral. -/
def isOverlong (cs : List Char) : Bool :=
  let sign := cs.takeWhile (· = '-')
  let digits := (cs.drop sign.length).takeWhile Char.isDigit
  decide (sign.length ≤ 1) && digits.head? ≠ some '0'
    && decide (sign.length + digits.length > maxNumeralLength)

/-! ## Tidying up -/

/-- What is left of a numeral after a zero and the zeros and underscores that follow; `last` is
the character before. The last of them is kept where nothing or a fraction comes next. -/
def afterZeros? (last : Char) : List Char → Option (List Char)
  | [] => some [last]
  | c :: cs =>
    if c = '0' || c = '_' then afterZeros? c cs
    else if c.isDigit || c = '-' then some (c :: cs)
    else if c = '.' then some (last :: c :: cs)
    else none

/-- Drop the zeros in front of a numeral, which must begin with a digit. -/
def dropZeros? : List Char → Option (List Char)
  | [] => none
  | c :: cs =>
    if c = '0' then afterZeros? c cs
    else if c.isDigit then some (c :: cs)
    else none

/-- Drop a point and at least one zero at the end of a numeral. -/
def dropZeroFraction (cs : List Char) : List Char :=
  match cs.dropWhile (· ≠ '.') with
  | '.' :: '0' :: zeros => if zeros.all (· = '0') then cs.takeWhile (· ≠ '.') else cs
  | _ => cs

/-- Drop the underscores of a numeral, if something stands before and after each. -/
def joinGroups? (cs : List Char) : Option (List Char) :=
  let groups := Text.fields '_' cs
  if groups.all (· ≠ []) then some groups.flatten else none

/-- The plain numeral for a numeral without a sign in front. -/
def tidyUnsigned? (cs : List Char) : Option (List Char) :=
  (dropZeros? cs).bind fun ds => joinGroups? (dropZeroFraction ds)

/-- The plain numeral that a text stands for. -/
def tidy? (cs : List Char) : Option (List Char) :=
  match Text.trim Binary64.isMargin cs with
  | '+' :: ds => tidyUnsigned? ds
  | '-' :: ds => (tidyUnsigned? ds).map ('-' :: ·)
  | ds => tidyUnsigned? ds

/-- The integer that a text stands for. -/
def numeral? (cs : List Char) : Option Int := (tidy? cs).bind plainInteger?

end Service

end StackLang
