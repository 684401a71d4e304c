/-!
# Numerals

Decimal and hexadecimal numerals of natural numbers and integers, and the value of a row of
digits. A numeral has no leading zero, a negative integer has a minus sign in front.

## Main definitions

* `Number.nat`, `Number.int`: decimal numerals
* `Number.hex`: hexadecimal numerals, filled up with zeros to a given width
* `Number.ofDigits`: the number that a row of decimal digits stands for
* `Number.twoPow`, `Number.tenPow`: powers of the two bases
-/

namespace StackLang

namespace Number

/-- The decimal numeral of a natural number, as characters. -/
def natChars (n : Nat) : List Char := Nat.toDigits 10 n

/-- The decimal numeral of an integer, as characters. -/
def intChars : Int → List Char
  | .ofNat n => natChars n
  | .negSucc n => '-' :: natChars (n + 1)

/-- The decimal numeral of a natural number. -/
def nat (n : Nat) : String := String.ofList (natChars n)

/-- The decimal numeral of an integer. -/
def int (n : Int) : String := String.ofList (intChars n)

/-- The hexadecimal numeral of `n` in small letters, at least `width` digits long. -/
def hex (width n : Nat) : String :=
  let digits := Nat.toDigits 16 n
  String.ofList (List.replicate (width - digits.length) '0' ++ digits)

/-- The number that a row of decimal digits stands for, the first digit weighing most. -/
def ofDigits (digits : List Nat) : Nat := digits.foldl (fun n d => 10 * n + d) 0

@[simp] theorem ofDigits_nil : ofDigits [] = 0 := rfl

/-- A further digit at the end multiplies by ten and adds. -/
theorem ofDigits_concat (ds : List Nat) (d : Nat) :
    ofDigits (ds ++ [d]) = 10 * ofDigits ds + d := by
  simp [ofDigits]

/-- A power of two. -/
def twoPow (e : Nat) : Nat := Nat.pow 2 e

/-- A power of ten. -/
def tenPow (e : Nat) : Nat := Nat.pow 10 e

/-- The value of a decimal digit of the basic alphabet; other characters count from `0` as well. -/
def asciiDigit (c : Char) : Nat := c.toNat - 48

end Number

end StackLang
