/-!
# Words

The values of the language: 32-bit words. Addition, subtraction and multiplication wrap around;
division and remainder read their operands as unsigned. An integer enters as its remainder modulo
`2 ^ 32` and leaves with its sign.

## Main definitions

* `Word`: a 32-bit word
* `Word.ofInteger`, `Word.toSigned`: from and to integers
* `Word.modulus`: the number of words
-/

namespace StackLang

/-- A 32-bit word. -/
abbrev Word := BitVec 32

namespace Word

/-- The number of words. -/
def modulus : Nat := 4294967296

/-- The word that an integer leaves as remainder. -/
def ofInteger (n : Int) : Word := BitVec.ofInt 32 n

/-- The signed reading of a word. -/
def toSigned (w : Word) : Int := w.toInt

/-- The remainder of an integer modulo the number of words. -/
def residue (n : Int) : Nat := (n % (modulus : Int)).toNat

theorem residue_lt (n : Int) : residue n < modulus := by
  have hpos : (0 : Int) < (modulus : Int) := by decide
  have hlt := Int.emod_lt_of_pos n hpos
  have hnonneg := Int.emod_nonneg n (Int.ne_of_gt hpos)
  rw [residue]
  omega

theorem residue_natCast (n : Nat) : residue (n : Int) = n % modulus := by
  rw [residue, ← Int.natCast_emod, Int.toNat_natCast]

/-- The remainder is the unsigned reading of the word. -/
theorem toNat_ofInteger (n : Int) : (ofInteger n).toNat = residue n := by
  simp [ofInteger, residue, modulus, BitVec.toNat_ofInt]

end Word

end StackLang
