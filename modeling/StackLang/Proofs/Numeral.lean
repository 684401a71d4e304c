import StackLang.Number.Integer
import StackLang.Word

/-!
# Numerals read back

Writing a natural number and reading the numeral gives the number again. The writer divides by
ten, the reader folds from the left over digits of any script; they meet in the digits of the
basic alphabet, on which the reader of all scripts agrees with counting from `0`.

## Main results

* `Number.digitsFrom?_of_isDigit` — rows of basic digits are read digit by digit
* `Number.readInteger_natChars` — a numeral that is not too long gives its number
* `Number.readInteger_residue` — this holds of every word
-/

namespace StackLang

namespace Number

theorem isDigit_of_mem_natChars {n : Nat} {c : Char} (h : c ∈ natChars n) : c.isDigit = true :=
  Nat.isDigit_of_mem_toDigits (by decide) (by decide) h

/-- An integer is written with digits and a minus sign. -/
theorem isDigit_or_eq_of_mem_intChars {n : Int} {c : Char} (h : c ∈ intChars n) :
    c.isDigit = true ∨ c = '-' := by
  cases n with
  | ofNat n => exact .inl (isDigit_of_mem_natChars h)
  | negSucc n => exact (List.mem_cons.mp h).symm.imp_left isDigit_of_mem_natChars

theorem natChars_ne_nil (n : Nat) : natChars n ≠ [] := Nat.toDigits_ne_nil

theorem toNat_of_isDigit {c : Char} (h : c.isDigit = true) :
    0x30 ≤ c.toNat ∧ c.toNat < 0x30 + 10 := by
  simp only [Char.isDigit, Bool.and_eq_true, decide_eq_true_eq, ge_iff_le, UInt32.le_iff_toNat_le]
    at h
  have h1 : 48 ≤ c.toNat := h.1
  have h2 : c.toNat ≤ 57 := h.2
  omega

/-- A digit of the basic alphabet has the value that counting from `0` gives. -/
theorem digitValue?_of_isDigit {c : Char} (h : c.isDigit = true) :
    Text.digitValue? c = some (asciiDigit c) := by
  have hrange := toNat_of_isDigit h
  rw [Text.digitValue?, Text.digitZeros, List.find?_cons_of_pos]
  · rfl
  · simpa using hrange

theorem digitsFrom?_of_isDigit {due : Bool} {cs : List Char} (h : ∀ c ∈ cs, c.isDigit = true)
    (hdue : due = true → cs ≠ []) : digitsFrom? due cs = some (cs.map asciiDigit) := by
  induction cs generalizing due with
  | nil =>
    cases due with
    | false => rfl
    | true => exact absurd rfl (hdue rfl)
  | cons c cs ih =>
    have hc : c.isDigit = true := h c List.mem_cons_self
    have hne : c ≠ '_' := by
      rintro rfl
      exact absurd hc (by decide)
    have hrest : digitsFrom? false cs = some (cs.map asciiDigit) :=
      ih (fun d hd => h d (List.mem_cons_of_mem c hd)) Bool.noConfusion
    rw [digitsFrom?, if_neg hne, digitValue?_of_isDigit hc, hrest]
    rfl

/-- The fold over the digits of a numeral undoes the divisions that made them. -/
theorem ofDigits_natChars (n : Nat) : ofDigits ((natChars n).map asciiDigit) = n := by
  have hfold : ofDigits ((natChars n).map asciiDigit) = Nat.ofDigitChars 10 (natChars n) 0 := by
    rw [ofDigits, List.foldl_map]
    rfl
  rw [hfold]
  exact Nat.ofDigitChars_ten_toDigits

theorem readSign_of_isDigit {cs : List Char} (h : ∀ c ∈ cs, c.isDigit = true) :
    readSign cs = (false, cs) := by
  match cs, h with
  | [], _ => rfl
  | c :: cs, h =>
    have hc : c.isDigit = true := h c List.mem_cons_self
    rw [readSign]
    · rintro cs' ⟨rfl, -⟩
      exact absurd hc (by decide)
    · rintro cs' ⟨rfl, -⟩
      exact absurd hc (by decide)

/-- **A numeral gives its number**, if it is not too long to be read. -/
theorem readInteger_natChars {n : Nat} (h : (natChars n).length ≤ maxDigits) :
    readInteger (natChars n) = .ok (n : Int) := by
  have hdigits : ∀ c ∈ natChars n, c.isDigit = true := fun c hc => isDigit_of_mem_natChars hc
  have hread : readDigits? (natChars n) = some ((natChars n).map asciiDigit) :=
    digitsFrom?_of_isDigit hdigits fun _ => natChars_ne_nil n
  rw [readInteger, readSign_of_isDigit hdigits]
  simp only [hread, List.length_map, ofDigits_natChars]
  rw [if_neg (Nat.not_lt.mpr h)]
  rfl

/-- The numeral of a word has at most ten digits. -/
theorem length_natChars_le {n : Nat} (h : n < Word.modulus) : (natChars n).length ≤ 10 :=
  (Nat.length_toDigits_le_iff (by decide) (by decide)).mpr (Nat.lt_trans h (by decide))

/-- The numeral of a word is read as its unsigned value. -/
theorem readInteger_residue (n : Int) :
    readInteger (natChars (Word.residue n)) = .ok (Word.residue n : Int) :=
  readInteger_natChars (Nat.le_trans (length_natChars_le (Word.residue_lt n)) (by decide))

end Number

end StackLang
