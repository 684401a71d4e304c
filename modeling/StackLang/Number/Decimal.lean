import StackLang.Number.Binary64

/-!
# Decimals of floating-point numbers

A finite number is shown by decimal digits and a power of ten. There are two ways to choose the
digits: the fewest that read back as the same number, or a fixed count of them. How digits and
power are laid out is a matter of style, kept in one record.

## Main definitions

* `Decimal.shortest`: the fewest digits that read back
* `Decimal.rounded`: a fixed count of digits, a half to the even neighbour
* `Decimal.Style`, `Decimal.write`: the layout
* `Binary64.text`, `Binary64.brief`: the two forms in use
-/

namespace StackLang

/-- Decimal digits, the first one before the point, times ten to the power `exponent`. -/
structure Decimal where
  digits : List Char
  exponent : Int
  deriving DecidableEq, Repr

namespace Decimal

/-- The value `num / den` divided by `10 ^ e`, as a fraction. -/
def scaled (num den : Nat) (e : Int) : Nat × Nat :=
  (num * Number.tenPow (-e).toNat, den * Number.tenPow e.toNat)

/-- The power of ten of the first digit of `num / den`. No finite number lies below
`10 ^ (-400)`, so scaling by that much leaves a whole part to count the digits of. -/
def magnitude (num den : Nat) : Int :=
  ((Number.natChars (num * Number.tenPow 400 / den)).length : Int) - 401

/-- A mantissa of `n` decimal digits at magnitude `p`. A mantissa that has grown by a digit moves
to the next magnitude, and zeros at its end are dropped. -/
def ofMantissa (n : Nat) (p : Int) (mantissa : Nat) : Decimal :=
  let cs := Number.natChars mantissa
  let p := if cs.length > n then p + 1 else p
  let kept := (cs.reverse.dropWhile (· = '0')).reverse
  ⟨if kept = [] then ['0'] else kept, p⟩

/-- The value `num / den` in `n` digits, a half to the even neighbour. -/
def rounded (n num den : Nat) : Decimal :=
  let p := magnitude num den
  let parts := scaled num den (p - (n : Int) + 1)
  ofMantissa n p (Binary64.roundHalfEven parts.1 parts.2)

/-- The numbers that round to one number: those between two bounds over one denominator, the
bounds among them when `closed`. -/
structure Interval where
  low : Nat
  high : Nat
  closed : Bool

/-- Whether `num / den` lies in an interval whose bounds are over `unit`. -/
def Interval.holds (i : Interval) (unit num den : Nat) : Bool :=
  if i.closed then
    decide (i.low * den ≤ num * unit) && decide (num * unit ≤ i.high * den)
  else
    decide (i.low * den < num * unit) && decide (num * unit < i.high * den)

/-- The neighbour of `value / unit` on the grid of `n` digits that lies in the interval: the
nearer of two, the even one of two equally near. -/
def onGrid? (i : Interval) (value unit : Nat) (p : Int) (n : Nat) : Option Decimal :=
  let grid := p - (n : Int) + 1
  let parts := scaled value unit grid
  let below := parts.1 / parts.2
  let inside := fun k : Nat =>
    i.holds unit (k * Number.tenPow grid.toNat) (Number.tenPow (-grid).toNat)
  match inside below, inside (below + 1) with
  | true, true => some (ofMantissa n p (Binary64.roundHalfEven parts.1 parts.2))
  | true, false => some (ofMantissa n p below)
  | false, true => some (ofMantissa n p (below + 1))
  | false, false => none

/-- The fewest digits that read back as `m * 2 ^ e`, for an `m` other than zero. Seventeen digits
always do. -/
def shortest (m : Nat) (e : Int) : Decimal :=
  let up := Number.twoPow (e - 2).toNat
  let unit := Number.twoPow (2 - e).toNat
  let below := if m = Number.twoPow 52 && e > Binary64.minExponent then 1 else 2
  let i : Interval := ⟨(4 * m - below) * up, (4 * m + 2) * up, m % 2 = 0⟩
  let value := 4 * m * up
  let p := magnitude value unit
  match (List.range 17).findSome? fun k => onGrid? i value unit p (k + 1) with
  | some d => d
  | none => rounded 17 value unit

/-- How digits and power of ten are laid out: the exponents from `least` up to and without `bound`
are written by placing the point, and a whole number ends in `.0` when `point` is set. -/
structure Style where
  least : Int
  bound : Int
  point : Bool

/-- A power of ten: a sign and at least two digits. -/
def exponentText (e : Int) : List Char :=
  let cs := Number.natChars e.natAbs
  'e' :: (if e < 0 then '-' else '+') :: (if cs.length < 2 then '0' :: cs else cs)

/-- The characters of a decimal. -/
def write (style : Style) (d : Decimal) : List Char :=
  if style.least ≤ d.exponent && d.exponent < style.bound then
    if d.exponent < 0 then
      '0' :: '.' :: List.replicate (-d.exponent - 1).toNat '0' ++ d.digits
    else
      let whole := d.exponent.toNat + 1
      let front := d.digits.take whole ++ List.replicate (whole - d.digits.length) '0'
      match d.digits.drop whole with
      | [] => if style.point then front ++ ['.', '0'] else front
      | rest => front ++ '.' :: rest
  else
    match d.digits with
    | [] => exponentText d.exponent
    | [c] => c :: exponentText d.exponent
    | c :: rest => c :: '.' :: rest ++ exponentText d.exponent

end Decimal

namespace Binary64

/-- A number by digits chosen with `choose` and laid out in `style`. -/
def display (style : Decimal.Style) (choose : Nat → Int → Decimal) : Binary64 → String
  | .nan => "nan"
  | .infinite negative => if negative then "-inf" else "inf"
  | .finite negative m e =>
    let d := if m = 0 then ⟨['0'], 0⟩ else choose m e
    let body := d.write style
    String.ofList (if negative then '-' :: body else body)

/-- Exponents from -4 to 15 are written by placing the point, and a whole number shows that it is
a floating-point number. -/
def exactStyle : Decimal.Style := ⟨-4, 16, true⟩

/-- Exponents from -4 to 5 are written by placing the point. -/
def briefStyle : Decimal.Style := ⟨-4, 6, false⟩

/-- The number in the fewest digits that read back. -/
def text (x : Binary64) : String := x.display exactStyle Decimal.shortest

/-- The number in six digits, without zeros at the end. -/
def brief (x : Binary64) : String :=
  x.display briefStyle fun m e =>
    Decimal.rounded 6 (m * Number.twoPow e.toNat) (Number.twoPow (-e).toNat)

end Binary64

end StackLang
