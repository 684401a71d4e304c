/-!
# Bytes and UTF-8

Texts are written to files as UTF-8. Reading back is strict where a text is needed, and lenient
where a message of another program is shown: there, every maximal part that is no character is
replaced by one replacement character.

The lenient reader is a machine over bytes. Between characters nothing is owed; inside one it
knows how many bytes are still owed and the least and greatest value of the next one. The bounds
of the second byte keep out long forms, surrogates and numbers above the last code point.

## Main definitions

* `Bytes`: what a file holds
* `Text.encode`, `Text.decode?`: writing, and strict reading
* `Text.decodeLenient`: reading with replacement characters
-/

namespace StackLang

/-- The contents of a file. -/
abbrev Bytes := List UInt8

namespace Text

/-- The bytes of a text. -/
def encode (s : String) : Bytes := s.toUTF8.data.toList

/-- The text that the bytes write, if they are UTF-8. -/
def decode? (bs : Bytes) : Option String := String.fromUTF8? ⟨bs.toArray⟩

/-- **Strict reading undoes writing.** -/
theorem decode?_encode (s : String) : decode? (encode s) = some s := by
  have h : (⟨(s.toUTF8.data.toList).toArray⟩ : ByteArray) = s.toUTF8 := by simp
  rw [decode?, encode, h, String.fromUTF8?]
  simp [String.toUTF8, String.fromUTF8, s.isValidUTF8]

/-- A character of which some bytes have been read: the bytes still owed, the bounds of the next
byte, and the code point so far. -/
structure Pending where
  owed : Nat
  least : Nat
  greatest : Nat
  point : Nat

/-- What stands in the place of bytes that are no character. -/
def replacement : Char := Char.ofNat 0xFFFD

/-- The first byte of a character: a whole character, the start of a longer one, or neither. -/
def firstByte (b : Nat) : Option (Char ⊕ Pending) :=
  if b < 0x80 then some (.inl (Char.ofNat b))
  else if b < 0xC2 then none
  else if b < 0xE0 then some (.inr ⟨1, 0x80, 0xBF, b - 0xC0⟩)
  else if b = 0xE0 then some (.inr ⟨2, 0xA0, 0xBF, 0⟩)
  else if b = 0xED then some (.inr ⟨2, 0x80, 0x9F, 0xD⟩)
  else if b < 0xF0 then some (.inr ⟨2, 0x80, 0xBF, b - 0xE0⟩)
  else if b = 0xF0 then some (.inr ⟨3, 0x90, 0xBF, 0⟩)
  else if b < 0xF4 then some (.inr ⟨3, 0x80, 0xBF, b - 0xF0⟩)
  else if b = 0xF4 then some (.inr ⟨3, 0x80, 0x8F, 4⟩)
  else none

/-- A byte between two characters: the characters it gives at once, and what it leaves open. -/
def freshByte (b : Nat) : List Char × Option Pending :=
  match firstByte b with
  | some (.inl c) => ([c], none)
  | some (.inr p) => ([], some p)
  | none => ([replacement], none)

/-- One more byte: the characters it gives, and what is open after it. A byte that cannot go on
with the open character ends it with a replacement character and then counts afresh. -/
def nextByte (open? : Option Pending) (b : Nat) : List Char × Option Pending :=
  match open? with
  | none => freshByte b
  | some p =>
    if p.least ≤ b && b ≤ p.greatest then
      let point := p.point * 64 + (b - 0x80)
      if p.owed ≤ 1 then ([Char.ofNat point], none)
      else ([], some ⟨p.owed - 1, 0x80, 0xBF, point⟩)
    else
      let (cs, p') := freshByte b
      (replacement :: cs, p')

/-- Read on with `open?` open. A character left open at the end is replaced. -/
def decodeFrom (open? : Option Pending) : Bytes → List Char
  | [] => if open?.isSome then [replacement] else []
  | b :: bs =>
    let (cs, p) := nextByte open? b.toNat
    cs ++ decodeFrom p bs

/-- The text of some bytes, with a replacement character for each maximal part that is none. -/
def decodeLenient (bs : Bytes) : String := String.ofList (decodeFrom none bs)

end Text

end StackLang
