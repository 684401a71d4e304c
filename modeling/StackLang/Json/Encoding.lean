import StackLang.Text.Raw

/-!
# Encodings of JSON documents

A document is UTF-8 unless its first bytes show otherwise. Its first characters are of the basic
alphabet, so zeros among the first bytes tell the width of the code units and which byte of a unit
comes first. A mark at the beginning of UTF-8 is skipped. Halves of surrogate pairs that stand alone
are kept as they are.

## Main definitions

* `Json.Encoding`, `Json.guessEncoding`: the encodings, and how they are told apart
* `Json.decodeDocument?`: the code points of a document
-/

namespace StackLang

namespace Json

/-- The encodings of documents: UTF-8, and code units of two or four bytes, the lowest byte first
or last. -/
inductive Encoding
  | utf8
  | wide (width : Nat) (lowFirst : Bool)
  deriving DecidableEq, Repr

/-- The encoding that the first bytes of a document show. -/
def guessEncoding : Bytes → Encoding
  | [a, b] => if a = 0 then .wide 2 false else if b = 0 then .wide 2 true else .utf8
  | a :: b :: c :: d :: _ =>
    if a = 0 then (if b = 0 then .wide 4 false else .wide 2 false)
    else if b = 0 then (if c = 0 && d = 0 then .wide 4 true else .wide 2 true)
    else .utf8
  | _ => .utf8

/-- The number that the bytes of a code unit write. -/
def unitValue (lowFirst : Bool) (bs : Bytes) : Nat :=
  (if lowFirst then bs.reverse else bs).foldl (fun n b => 256 * n + b.toNat) 0

/-- The code units of some bytes, with `unit` holding the bytes of an unfinished one in reverse;
`none` when the last one stays unfinished. -/
def unitsFrom? (width : Nat) (lowFirst : Bool) (unit : Bytes) : Bytes → Option (List Nat)
  | [] => if unit = [] then some [] else none
  | b :: bs =>
    let unit' := b :: unit
    if unit'.length = width then
      (unitsFrom? width lowFirst [] bs).map (unitValue lowFirst unit'.reverse :: ·)
    else unitsFrom? width lowFirst unit' bs

/-- Whether a code unit is the first half of a pair. -/
def isHigh (u : Nat) : Bool := 0xD800 ≤ u && u < 0xDC00

/-- Whether a code unit is the second half of a pair. -/
def isLow (u : Nat) : Bool := 0xDC00 ≤ u && u < 0xE000

/-- The character of a pair. -/
def ofPair (high low : Nat) : Point :=
  .char (Char.ofNat (0x10000 + (high - 0xD800) * 0x400 + (low - 0xDC00)))

/-- The code points of code units of two bytes; a first half of a pair may be waiting. -/
def joinPairs : (high : Option Nat) → List Nat → List Point
  | none, [] => []
  | some h, [] => [.ofCode h]
  | none, u :: us =>
    if isHigh u then joinPairs (some u) us else .ofCode u :: joinPairs none us
  | some h, u :: us =>
    if isLow u then ofPair h u :: joinPairs none us
    else if isHigh u then .ofCode h :: joinPairs (some u) us
    else .ofCode h :: .ofCode u :: joinPairs none us

/-- The code point of a code unit of four bytes; numbers above the last character are none. -/
def wholePoint? (u : Nat) : Option Point := if u > 0x10FFFF then none else some (.ofCode u)

/-- Skip a mark at the beginning. -/
def skipMark : List Point → List Point
  | p :: ps => if p.code = 0xFEFF then ps else p :: ps
  | [] => []

/-- The code points of a document. -/
def decodeDocument? (bs : Bytes) : Option (List Point) :=
  match guessEncoding bs with
  | .utf8 => (Text.decode? bs).map fun s => skipMark (RawText.ofString s).points
  | .wide width lowFirst => do
    let units ← unitsFrom? width lowFirst [] bs
    if width = 2 then return joinPairs none units else units.mapM wholePoint?

end Json

end StackLang
