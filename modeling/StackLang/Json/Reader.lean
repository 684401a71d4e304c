import StackLang.Json.Basic
import StackLang.Json.Encoding

/-!
# Reading JSON

A reader that tells where a document stops being JSON. It goes from left to right and stops at the
first fault, with the place of that fault counted in code points from zero. `NaN`, `Infinity` and
`-Infinity` count as numbers, and of two fields with one name the later one counts.

Strings are read by a machine over code points: plain text, after a backslash, inside the four
digits of a code unit, and right after them, where the text may not end. Two code units that are the
halves of a pair make one character; half of a pair without the other half is kept.

## Main definitions

* `Json.ReadError`: what is wrong and where
* `Json.readString`: the machine for strings
* `Json.read`: the whole document
-/

namespace StackLang

namespace Json

/-- Why a text is no JSON document. -/
inductive ReadCause
  | value
  | key
  | colon
  | comma
  | extra
  | openString
  | control
  | escape
  | codeUnit
  /-- A whole number has too many digits. -/
  | numeralTooLong (digits : Nat)
  /-- Values are nested too deeply. -/
  | tooDeep
  deriving DecidableEq, Repr

/-- What is wrong and where. -/
structure ReadError where
  cause : ReadCause
  offset : Nat
  deriving DecidableEq, Repr

/-- The text of a cause, for those that show a fault of the document's form. -/
def ReadCause.text? : ReadCause → Option String
  | .value => some "Expecting value"
  | .key => some "Expecting property name enclosed in double quotes"
  | .colon => some "Expecting ':' delimiter"
  | .comma => some "Expecting ',' delimiter"
  | .extra => some "Extra data"
  | .openString => some "Unterminated string starting at"
  | .control => some "Invalid control character at"
  | .escape => some "Invalid \\escape"
  | .codeUnit => some "Invalid \\uXXXX escape"
  | .numeralTooLong _ => none
  | .tooDeep => none

/-- The code points still to be read, and how many have been. -/
structure Cursor where
  rest : List Point
  offset : Nat

namespace Cursor

/-- The cursor after `n` code points. -/
def advance (c : Cursor) (n : Nat) : Cursor := ⟨c.rest.drop n, c.offset + n⟩

/-- The four characters that may stand between the parts of a document. -/
def isSpace (p : Point) : Bool :=
  p = .char ' ' || p = .char '\t' || p = .char '\n' || p = .char '\r'

/-- The cursor at the next code point that is no space. -/
def skipSpace (c : Cursor) : Cursor := c.advance (c.rest.takeWhile isSpace).length

/-- The characters still to be read, up to half of a pair. -/
def chars (c : Cursor) : List Char := (c.rest.takeWhile fun p => !p.isHalf).filterMap Point.char?

/-- A fault here. -/
def fault {α : Type} (c : Cursor) (cause : ReadCause) : Except ReadError α :=
  .error ⟨cause, c.offset⟩

end Cursor

/-! ## Strings -/

/-- Where the machine for strings stands. -/
inductive StringMode
  | plain
  /-- After a backslash. -/
  | escape
  /-- In a code unit that began at `start`, with `owed` more digits to come. -/
  | codeUnit (start owed value : Nat)
  /-- Right after a code unit that began at `start`. -/
  | closed (start : Nat)

/-- The character that a letter stands for after a backslash. -/
def escapes : List (Char × Char) :=
  [('"', '"'), ('\\', '\\'), ('/', '/'), ('b', '\x08'), ('f', '\x0c'), ('n', '\n'), ('r', '\r'),
    ('t', '\t')]

/-- The value of a hexadecimal digit. -/
def hexDigit? (c : Char) : Option Nat :=
  if c.isDigit then some (c.toNat - 48)
  else if 'a' ≤ c && c ≤ 'f' then some (c.toNat - 87)
  else if 'A' ≤ c && c ≤ 'F' then some (c.toNat - 55)
  else none

/-- Text read so far, in reverse, and the first half of a pair if one is waiting. -/
structure Collected where
  points : List Point := []
  high : Option Nat := none

/-- A half that has waited for the other one in vain stands alone. -/
def Collected.settle (t : Collected) : Collected :=
  match t.high with
  | some h => ⟨.ofCode h :: t.points, none⟩
  | none => t

/-- One more code point. -/
def Collected.push (t : Collected) (p : Point) : Collected := ⟨p :: t.settle.points, none⟩

/-- One more code unit. -/
def Collected.pushUnit (t : Collected) (u : Nat) : Collected :=
  if isHigh u then ⟨t.settle.points, some u⟩
  else match t.high with
    | some h => if isLow u then ⟨ofPair h u :: t.points, none⟩ else t.push (.ofCode u)
    | none => t.push (.ofCode u)

/-- The text read so far. -/
def Collected.text (t : Collected) : RawText := ⟨t.settle.points.reverse⟩

/-- The string that began at `start`, from the code point at `offset` on. -/
def readString (start : Nat) :
    StringMode → Collected → Nat → List Point → Except ReadError (RawText × Cursor)
  | .codeUnit u _ _, _, _, [] => .error ⟨.codeUnit, u⟩
  | .closed u, _, _, [] => .error ⟨.codeUnit, u⟩
  | .plain, _, _, [] => .error ⟨.openString, start⟩
  | .escape, _, _, [] => .error ⟨.openString, start⟩
  | .codeUnit u owed value, t, offset, p :: ps =>
    match p.char?.bind hexDigit? with
    | none => .error ⟨.codeUnit, u⟩
    | some d =>
      if owed ≤ 1 then readString start (.closed u) (t.pushUnit (value * 16 + d)) (offset + 1) ps
      else readString start (.codeUnit u (owed - 1) (value * 16 + d)) t (offset + 1) ps
  | .escape, t, offset, p :: ps =>
    if p = .char 'u' then readString start (.codeUnit offset 4 0) t (offset + 1) ps
    else match p.char?.bind fun c => escapes.lookup c with
      | some e => readString start .plain (t.push (.char e)) (offset + 1) ps
      | none => .error ⟨.escape, offset - 1⟩
  | _, t, offset, p :: ps =>
    if p = .char '"' then .ok (t.text, ⟨ps, offset + 1⟩)
    else if p = .char '\\' then readString start .escape t (offset + 1) ps
    else if p.code ≤ 0x1F then .error ⟨.control, offset⟩
    else readString start .plain (t.push p) (offset + 1) ps

/-! ## Numbers -/

/-- The digits in front of the rest. -/
def digitsOf (cs : List Char) : List Char := cs.takeWhile Char.isDigit

/-- The digits before the point: a zero, or a row that does not begin with one. -/
def wholePart? : List Char → Option (List Char)
  | '0' :: _ => some ['0']
  | cs => if digitsOf cs = [] then none else some (digitsOf cs)

/-- The point and the digits after it, if there are any. -/
def fractionPart : List Char → List Char
  | '.' :: cs => if digitsOf cs = [] then [] else '.' :: digitsOf cs
  | _ => []

/-- The exponent, if it has digits. -/
def exponentPart : List Char → List Char
  | c :: cs =>
    if c = 'e' || c = 'E' then
      match cs with
      | s :: ds =>
        if s = '+' || s = '-' then (if digitsOf ds = [] then [] else c :: s :: digitsOf ds)
        else if digitsOf cs = [] then [] else c :: digitsOf cs
      | [] => []
    else []
  | [] => []

/-- A number at the cursor. -/
def readNumber (c : Cursor) : Except ReadError (Json × Cursor) :=
  let chars := c.chars
  let sign := match chars with
    | '-' :: _ => ['-']
    | _ => []
  let body := chars.drop sign.length
  match wholePart? body with
  | none => c.fault .value
  | some whole =>
    let fraction := fractionPart (body.drop whole.length)
    let exponent := exponentPart (body.drop (whole.length + fraction.length))
    let numeral := sign ++ whole ++ fraction ++ exponent
    let next := c.advance numeral.length
    if fraction = [] && exponent = [] then
      if whole.length > Number.maxDigits then c.fault (.numeralTooLong whole.length)
      else
        let n := Number.ofDigits (whole.map Number.asciiDigit)
        .ok (.int (Number.signed (sign ≠ []) n), next)
    else match Binary64.readPlain? numeral with
      | some x => .ok (.float x, next)
      | none => c.fault .value

/-! ## Values -/

/-- The words that are values. -/
def words : List (List Char × Json) :=
  [("null".toList, .null), ("true".toList, .bool true), ("false".toList, .bool false),
    ("NaN".toList, .float .nan), ("Infinity".toList, .float (.infinite false)),
    ("-Infinity".toList, .float (.infinite true))]

/-- A word or a number at the cursor. -/
def readScalar (c : Cursor) : Except ReadError (Json × Cursor) :=
  match words.find? fun w => w.1.isPrefixOf c.chars with
  | some (word, v) => .ok (v, c.advance word.length)
  | none => readNumber c

/-- How deeply values may be nested. -/
def maxDepth : Nat := 950

mutual

/-- A value at the cursor, with `depth` more levels to go down. -/
def readValue : (fuel depth : Nat) → Cursor → Except ReadError (Json × Cursor)
  | 0, _, c => c.fault .value
  | fuel + 1, depth, c =>
    match c.rest with
    | .char '"' :: ps => do
      let (s, next) ← readString c.offset .plain {} (c.offset + 1) ps
      return (.str s, next)
    | .char '[' :: _ =>
      if depth = 0 then c.fault .tooDeep
      else
        let inner := (c.advance 1).skipSpace
        match inner.rest with
        | .char ']' :: _ => .ok (.arr [], inner.advance 1)
        | _ => do
          let (items, next) ← readItems fuel (depth - 1) inner
          return (.arr items, next)
    | .char '\x7b' :: _ =>
      if depth = 0 then c.fault .tooDeep
      else
        let inner := (c.advance 1).skipSpace
        match inner.rest with
        | .char '\x7d' :: _ => .ok (.obj [], inner.advance 1)
        | _ => do
          let (fields, next) ← readFields fuel (depth - 1) [] inner
          return (.obj fields, next)
    | _ => readScalar c

/-- The items of a list from the cursor on. -/
def readItems : (fuel depth : Nat) → Cursor → Except ReadError (List Json × Cursor)
  | 0, _, c => c.fault .value
  | fuel + 1, depth, c => do
    let (v, after) ← readValue fuel depth c
    let next := after.skipSpace
    match next.rest with
    | .char ']' :: _ => return ([v], next.advance 1)
    | .char ',' :: _ =>
      let (vs, last) ← readItems fuel depth (next.advance 1).skipSpace
      return (v :: vs, last)
    | _ => next.fault .comma

/-- The fields of an object from the cursor on, after the fields `done`. -/
def readFields : (fuel depth : Nat) → List (RawText × Json) → Cursor →
    Except ReadError (List (RawText × Json) × Cursor)
  | 0, _, _, c => c.fault .key
  | fuel + 1, depth, done, c =>
    match c.rest with
    | .char '"' :: ps => do
      let (name, afterName) ← readString c.offset .plain {} (c.offset + 1) ps
      let colon := afterName.skipSpace
      match colon.rest with
      | .char ':' :: _ =>
        let (v, afterValue) ← readValue fuel depth (colon.advance 1).skipSpace
        let next := afterValue.skipSpace
        match next.rest with
        | .char '\x7d' :: _ => return (setField name v done, next.advance 1)
        | .char ',' :: _ => readFields fuel depth (setField name v done) (next.advance 1).skipSpace
        | _ => next.fault .comma
      | _ => colon.fault .colon
    | _ => c.fault .key

end

/-- Read a document. Every call goes on by at least one code point, or hands on to another one
that does, so twice the length is fuel enough. -/
def read (ps : List Point) : Except ReadError Json := do
  let (v, after) ← readValue (2 * ps.length + 2) maxDepth (Cursor.skipSpace ⟨ps, 0⟩)
  let last := after.skipSpace
  if last.rest = [] then return v else last.fault .extra

end Json

end StackLang
