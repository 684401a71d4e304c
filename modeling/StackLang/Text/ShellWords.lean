import StackLang.Text.Quoted

/-!
# Words of a command line

A command is written as one text and split into words. Blanks part words; apostrophes keep
everything between them, quotation marks keep everything but a backslash before a quotation mark
or a backslash, and a backslash outside quotes keeps the next character. Pieces that touch are one
word, and empty quotes are an empty word.

In the other direction a word is quoted so that it splits back into itself.

## Main definitions

* `ShellWords.split`: the words of a text, or what is missing at its end
* `ShellWords.quote`, `ShellWords.join`: writing one word, and a whole command
-/

namespace StackLang

namespace ShellWords

/-- What can be missing at the end of a text. -/
inductive SplitError
  /-- A quote was opened and not closed. -/
  | openQuote
  /-- A backslash has nothing after it. -/
  | openEscape
  deriving DecidableEq, Repr

/-- The characters that part words. -/
def isSeparator (c : Char) : Bool := c = ' ' || c = '\t' || c = '\r' || c = '\n'

/-- Where the reader stands. -/
inductive Mode
  /-- Outside quotes. -/
  | plain
  /-- After a backslash outside quotes. -/
  | escaped
  /-- Between the quotes `mark`. -/
  | inside (mark : Char)
  /-- After a backslash between quotation marks. -/
  | insideEscaped
  deriving DecidableEq, Repr

/-- The word read so far, put in front of the words that follow. No word has been begun when
`word` is `none`; an empty word in quotes has. The characters are held in reverse. -/
def emit (word : Option (List Char)) (rest : List String) : List String :=
  match word with
  | none => rest
  | some cs => String.ofList cs.reverse :: rest

/-- The word read so far with one more character. -/
def grow (word : Option (List Char)) (c : Char) : Option (List Char) := some (c :: word.getD [])

/-- The words from here on. -/
def splitFrom : Mode → Option (List Char) → List Char → Except SplitError (List String)
  | .plain, word, [] => .ok (emit word [])
  | .escaped, _, [] => .error .openEscape
  | .inside _, _, [] => .error .openQuote
  | .insideEscaped, _, [] => .error .openEscape
  | .plain, word, c :: cs =>
    if isSeparator c then return emit word (← splitFrom .plain none cs)
    else if c = '\\' then splitFrom .escaped word cs
    else if c = Text.apostrophe || c = Text.quotationMark then
      splitFrom (.inside c) (some (word.getD [])) cs
    else splitFrom .plain (grow word c) cs
  | .escaped, word, c :: cs => splitFrom .plain (grow word c) cs
  | .inside mark, word, c :: cs =>
    if c = mark then splitFrom .plain word cs
    else if c = '\\' && mark = Text.quotationMark then splitFrom .insideEscaped word cs
    else splitFrom (.inside mark) (grow word c) cs
  | .insideEscaped, word, c :: cs =>
    if c = '\\' || c = Text.quotationMark then
      splitFrom (.inside Text.quotationMark) (grow word c) cs
    else splitFrom (.inside Text.quotationMark) (grow (grow word '\\') c) cs

/-- The words of a text. -/
def split (s : String) : Except SplitError (List String) := splitFrom .plain none s.toList

/-- The characters that need no quotes. -/
def isBare (c : Char) : Bool :=
  c.isAlphanum || "_@%+=:,./-".toList.contains c

/-- One word as it is written in a command. An apostrophe inside is put between quotation
marks. -/
def quote (word : String) : String :=
  if word.toList ≠ [] && word.toList.all isBare then word
  else
    let body := word.toList.flatMap fun c =>
      if c = Text.apostrophe then "'\"'\"'".toList else [c]
    String.ofList (Text.apostrophe :: body ++ [Text.apostrophe])

/-- A whole command on one line. -/
def join (words : List String) : String := " ".intercalate (words.map quote)

end ShellWords

end StackLang
