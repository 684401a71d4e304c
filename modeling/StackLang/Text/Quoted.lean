import StackLang.Number.Numeral
import StackLang.Text.Printable

/-!
# Texts quoted in messages

A message that names a text shows it between quotes, with every character that would not show as
itself written as an escape. The quote is the apostrophe, unless the text holds an apostrophe and
no quotation mark; then the quotation mark saves the escapes.

## Main definitions

* `Text.quoteMark`: which quote a text is shown in
* `Text.quoted`: a text with its quotes and escapes
-/

namespace StackLang

namespace Text

/-- The apostrophe. -/
def apostrophe : Char := Char.ofNat 0x27

/-- The quotation mark. -/
def quotationMark : Char := Char.ofNat 0x22

/-- The quote that a text is shown in. -/
def quoteMark (cs : List Char) : Char :=
  if cs.contains apostrophe && !cs.contains quotationMark then quotationMark else apostrophe

/-- One character between the quotes `mark`. Unprintable characters are written by their code
point, in two, four or eight hexadecimal digits. -/
def escapeIn (mark c : Char) : List Char :=
  if c = mark || c = '\\' then ['\\', c]
  else if c = '\n' then ['\\', 'n']
  else if c = '\r' then ['\\', 'r']
  else if c = '\t' then ['\\', 't']
  else if isPrintable c then [c]
  else if c.toNat < 0x100 then '\\' :: 'x' :: (Number.hex 2 c.toNat).toList
  else if c.toNat < 0x10000 then '\\' :: 'u' :: (Number.hex 4 c.toNat).toList
  else '\\' :: 'U' :: (Number.hex 8 c.toNat).toList

/-- A text with its quotes and escapes. -/
def quoted (s : String) : String :=
  let mark := quoteMark s.toList
  String.ofList (mark :: s.toList.flatMap (escapeIn mark) ++ [mark])

end Text

end StackLang
