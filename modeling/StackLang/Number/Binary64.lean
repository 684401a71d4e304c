import StackLang.Number.Integer
import StackLang.Text.Blank

/-!
# Floating-point numbers

Numbers with 53 binary digits, as exact values: a sign, a mantissa and a power of two. All
arithmetic is on natural numbers, so a decimal is rounded once, to the nearest number, and a half
goes to the even neighbour.

## Main definitions

* `Binary64`: not a number, the infinities, and the finite numbers
* `Binary64.ofRatio`: the number nearest to a fraction
* `Binary64.ofDecimal`: the number nearest to a decimal
* `Binary64.ofText?`: reading a decimal, or a name such as `inf`
* `Binary64.toInt?`: the integer that a number is
-/

namespace StackLang

/-- A floating-point number; `finite s m e` is `m * 2 ^ e`, negative when `s` is set. -/
inductive Binary64
  | nan
  | infinite (negative : Bool)
  | finite (negative : Bool) (mantissa : Nat) (exponent : Int)
  deriving DecidableEq, Repr

namespace Binary64

/-- The least exponent of a finite number. -/
def minExponent : Int := -1074

/-- The greatest exponent of a finite number. -/
def maxExponent : Int := 971

/-- The fraction `num / den`, divided by `2 ^ e`, as a fraction of natural numbers. -/
def scaled (num den : Nat) (e : Int) : Nat × Nat :=
  (num * Number.twoPow (-e).toNat, den * Number.twoPow e.toNat)

/-- The whole number nearest to `num / den`; a half goes to the even one. -/
def roundHalfEven (num den : Nat) : Nat :=
  let q := num / den
  let r := num % den
  if 2 * r > den || (2 * r = den && q % 2 = 1) then q + 1 else q

/-- The number nearest to `num / den`, for a `den` other than zero. -/
def ofRatio (negative : Bool) (num den : Nat) : Binary64 :=
  if num = 0 then .finite negative 0 minExponent
  else
    let k : Int := (Nat.log2 num : Int) - (Nat.log2 den : Int)
    let wide := scaled num den (k - 52)
    let e := max (if wide.1 / wide.2 < Number.twoPow 52 then k - 53 else k - 52) minExponent
    let parts := scaled num den e
    let m := roundHalfEven parts.1 parts.2
    let (m, e) := if m = Number.twoPow 53 then (Number.twoPow 52, e + 1) else (m, e)
    if e > maxExponent then .infinite negative else .finite negative m e

/-- The number nearest to `digits * 10 ^ e`. Powers far outside the range of finite numbers are
not computed. -/
def ofDecimal (negative : Bool) (digits : Nat) (e : Int) : Binary64 :=
  let magnitude : Int := ((Number.natChars digits).length : Int) + e
  if digits = 0 then .finite negative 0 minExponent
  else if magnitude > 400 then .infinite negative
  else if magnitude < -400 then .finite negative 0 minExponent
  else ofRatio negative (digits * Number.tenPow e.toNat) (Number.tenPow (-e).toNat)

/-- An integer as a floating-point number. -/
def ofInt (n : Int) : Binary64 := ofRatio (decide (n < 0)) n.natAbs 1

/-- The integer that a number is, if it has no fraction. -/
def toInt? : Binary64 → Option Int
  | .finite negative m e =>
    let unit := Number.twoPow (-e).toNat
    if 0 ≤ e then some (Number.signed negative (m * Number.twoPow e.toNat))
    else if m % unit = 0 then some (Number.signed negative (m / unit))
    else none
  | _ => none

/-- Whether the number is finite. -/
def isFinite : Binary64 → Bool
  | .finite .. => true
  | _ => false

/-! ## Reading -/

/-- The blanks that may stand around a number: those of the basic alphabet without the four
separators, and all others. -/
def isMargin (c : Char) : Bool :=
  Text.isBlank c && !(decide (0x1C ≤ c.toNat) && decide (c.toNat ≤ 0x1F))

/-- A digit of any script as a digit of the basic alphabet. -/
def plainDigit (c : Char) : Char :=
  match Text.digitValue? c with
  | some d => Char.ofNat (48 + d)
  | none => c

/-- Take out the underscores, each of which must stand between two digits. `before` tells whether
a digit came last. -/
def dropUnderscores? (before : Bool) : List Char → Option (List Char)
  | [] => some []
  | ['_'] => none
  | '_' :: c :: cs =>
    if before && c.isDigit then (dropUnderscores? true cs).map (c :: ·) else none
  | c :: cs => (dropUnderscores? c.isDigit cs).map (c :: ·)

/-- The exponent at the end of a numeral; a missing one is zero. -/
def readExponent? : List Char → Option Int
  | [] => some 0
  | c :: cs =>
    if c = 'e' || c = 'E' then
      let (negative, ds) := Number.readSign cs
      if ds ≠ [] && ds.all Char.isDigit then
        some (Number.signed negative (Number.ofDigits (ds.map Number.asciiDigit)))
      else none
    else none

/-- A decimal without a sign: digits, a point with digits on at least one side, an exponent. -/
def readDecimal? (negative : Bool) (cs : List Char) : Option Binary64 := do
  let whole := cs.takeWhile Char.isDigit
  let (fraction, tail) := match cs.dropWhile Char.isDigit with
    | '.' :: rest => (rest.takeWhile Char.isDigit, rest.dropWhile Char.isDigit)
    | rest => ([], rest)
  if whole = [] && fraction = [] then none
  else
    let e ← readExponent? tail
    let digits := Number.ofDigits ((whole ++ fraction).map Number.asciiDigit)
    some (ofDecimal negative digits (e - (fraction.length : Int)))

/-- A number without its margins. -/
def readPlain? (cs : List Char) : Option Binary64 :=
  let (negative, body) := Number.readSign cs
  match String.ofList (body.map Char.toLower) with
  | "inf" => some (.infinite negative)
  | "infinity" => some (.infinite negative)
  | "nan" => some .nan
  | _ => readDecimal? negative body

/-- Read a floating-point number. -/
def ofText? (s : String) : Option Binary64 := do
  let cs ← dropUnderscores? false ((Text.trim isMargin s.toList).map plainDigit)
  readPlain? cs

end Binary64

end StackLang
