import StackLang.Text.Ranges

/-!
# Blank characters

Blanks are the characters that carry no ink and part one word from the next, in any script. They
are dropped at both ends of a text before the text is read.

## Main definitions

* `Text.isBlank`: the property itself
* `Text.trim`, `Text.strip`: dropping characters, or blanks, at both ends
-/

namespace StackLang

namespace Text

/-- The blanks: tab to carriage return, the four separators and the space, next line, no-break
space, and the spaces of the general punctuation and of the single scripts. -/
def blankRanges : List (Nat × Nat) :=
  [(0x09, 0x0D), (0x1C, 0x20), (0x85, 0x85), (0xA0, 0xA0), (0x1680, 0x1680), (0x2000, 0x200A),
    (0x2028, 0x2029), (0x202F, 0x202F), (0x205F, 0x205F), (0x3000, 0x3000)]

/-- Whether `c` is a blank. -/
def isBlank (c : Char) : Bool := inRanges blankRanges c.toNat

/-- Drop the characters with property `p` at both ends. -/
def trim (p : Char → Bool) (cs : List Char) : List Char :=
  ((cs.dropWhile p).reverse.dropWhile p).reverse

/-- Drop the blanks at both ends. -/
def strip (s : String) : String := String.ofList (trim isBlank s.toList)

end Text

end StackLang
