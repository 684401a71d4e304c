import StackLang.Text.Utf8

/-!
# Parenthesised texts

Module texts are nested parentheses around words and strings. A text is first cut into tokens by
a machine over its characters, then the tokens are gathered into trees. Comments run from two
semicolons to the end of the line.

## Main definitions

* `Wasm.tokens`: the tokens of a text
* `Wasm.Sexp`, `Wasm.trees?`: the trees of a text
* `Wasm.leadLength`: where the first token begins
-/

namespace StackLang

namespace Wasm

/-- A token. -/
inductive Lexeme
  | opening
  | closing
  | word (text : String)
  | string (text : String)
  deriving DecidableEq, Repr

/-- Where the machine for tokens stands. The characters of an unfinished token are kept in
reverse. -/
inductive LexMode
  | blank
  | word (chars : List Char)
  | string (chars : List Char)
  /-- After a backslash in a string. -/
  | escaped (chars : List Char)
  /-- After the first semicolon of a comment. -/
  | semicolon
  | comment
  deriving DecidableEq, Repr

/-- The characters between tokens. -/
def isLexBlank (c : Char) : Bool := c = ' ' || c = '\n' || c = '\t' || c = '\r'

/-- The token that a word in progress is. -/
def wordToken (chars : List Char) : Lexeme := .word (String.ofList chars.reverse)

/-- The tokens from here on; `none` when a string is left open or a semicolon stands alone. -/
def tokensFrom : LexMode → List Char → Option (List Lexeme)
  | .blank, [] => some []
  | .word chars, [] => some [wordToken chars]
  | .comment, [] => some []
  | .string _, [] => none
  | .escaped _, [] => none
  | .semicolon, [] => none
  | .semicolon, c :: cs => if c = ';' then tokensFrom .comment cs else none
  | .comment, c :: cs => if c = '\n' then tokensFrom .blank cs else tokensFrom .comment cs
  | .string chars, c :: cs =>
    if c = '"' then (tokensFrom .blank cs).map (.string (String.ofList chars.reverse) :: ·)
    else if c = '\\' then tokensFrom (.escaped chars) cs
    else tokensFrom (.string (c :: chars)) cs
  | .escaped chars, c :: cs => tokensFrom (.string (c :: chars)) cs
  | .blank, c :: cs =>
    if isLexBlank c then tokensFrom .blank cs
    else if c = '(' then (tokensFrom .blank cs).map (.opening :: ·)
    else if c = ')' then (tokensFrom .blank cs).map (.closing :: ·)
    else if c = '"' then tokensFrom (.string []) cs
    else if c = ';' then tokensFrom .semicolon cs
    else tokensFrom (.word [c]) cs
  | .word chars, c :: cs =>
    if isLexBlank c then (tokensFrom .blank cs).map (wordToken chars :: ·)
    else if c = '(' then (tokensFrom .blank cs).map fun ts => wordToken chars :: .opening :: ts
    else if c = ')' then (tokensFrom .blank cs).map fun ts => wordToken chars :: .closing :: ts
    else if c = ';' then (tokensFrom .semicolon cs).map (wordToken chars :: ·)
    else tokensFrom (.word (c :: chars)) cs

/-- The tokens of a text. -/
def tokens (cs : List Char) : Option (List Lexeme) := tokensFrom .blank cs

/-- A word, a string, or trees in parentheses. -/
inductive Sexp
  | word (text : String)
  | string (text : String)
  | list (items : List Sexp)
  deriving Repr

/-- Gather tokens into trees. `current` holds the trees of the innermost open parenthesis and
`outer` those of the others, all in reverse. -/
def gather : (outer : List (List Sexp)) → (current : List Sexp) → List Lexeme →
    Option (List Sexp)
  | [], current, [] => some current.reverse
  | _ :: _, _, [] => none
  | outer, current, .opening :: ts => gather (current :: outer) [] ts
  | [], _, .closing :: _ => none
  | above :: outer, current, .closing :: ts => gather outer (.list current.reverse :: above) ts
  | outer, current, .word w :: ts => gather outer (.word w :: current) ts
  | outer, current, .string s :: ts => gather outer (.string s :: current) ts

/-- The trees of a text. -/
def trees? (cs : List Char) : Option (List Sexp) := do gather [] [] (← tokens cs)

/-- How many characters stand before the first token, from inside a comment or not. -/
def leadFrom : (comment : Bool) → List Char → Nat
  | _, [] => 0
  | true, c :: cs => 1 + leadFrom (c ≠ '\n') cs
  | false, c :: cs =>
    if isLexBlank c then 1 + leadFrom false cs
    else if c = ';' then 1 + leadFrom true cs
    else 0

/-- How many characters stand before the first token. -/
def leadLength (cs : List Char) : Nat := leadFrom false cs

end Wasm

end StackLang
