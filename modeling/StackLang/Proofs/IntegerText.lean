import Mathlib.Data.Nat.Digits.Lemmas
import StackLang.Proofs.Numeral

/-!
# How integers are written

Integers are read from more texts than they are written as: with a plus sign, with leading zeros, in
the digits of any script and of several at once, and with underscores between the digits. Which
texts these are is said by a grammar, and which number such a text stands for by its digits.

An underscore is read with one bit of memory: whether a digit must come next. In the grammar this is
the difference between a row of digits and what may follow a digit, which can also be nothing or
begin with an underscore.

## Main definitions

* `Text.IsDigit` — digits and the numbers they stand for
* `Number.DigitRow` — digits with single underscores between them
* `Number.Denotes` — the texts that stand for an integer

## Main results

* `Text.digitValue?_eq_some_iff` — a digit is found in the table of its script
* `Number.readDigits?_eq_some_iff` — the rows of digits that are read
* `Number.readInteger_eq_ok_iff` — the integers that are read
* `Number.denotes_intChars` — an integer is written as a text that stands for it
-/

namespace StackLang

namespace Text

/-! ## Single digits -/

/-- The character is the digit `d` of some script. -/
def IsDigit (c : Char) (d : Nat) : Prop := d < 10 ∧ ∃ base ∈ digitZeros, c.toNat = base + d

/-- Sets of ten digits do not overlap. -/
theorem pairwise_digitZeros : digitZeros.Pairwise fun base next => base + 10 ≤ next := by
  decide

/-- **A digit is found in the set of its script**, and in no other. -/
theorem digitValue?_eq_some_iff {c : Char} {d : Nat} : digitValue? c = some d ↔ IsDigit c d := by
  constructor
  · intro h
    have hlt := digitValue?_lt h
    obtain ⟨base, hbase, hd⟩ := Option.map_eq_some_iff.mp h
    have hrange := List.find?_some hbase
    simp only [Bool.and_eq_true, decide_eq_true_eq] at hrange
    exact ⟨hlt, base, List.mem_of_find?_eq_some hbase, by omega⟩
  · rintro ⟨hd, base, hmem, hc⟩
    obtain ⟨before, after, hzeros⟩ := List.append_of_mem hmem
    have hapart := pairwise_digitZeros
    rw [hzeros] at hapart
    have hfind : (digitZeros.find? fun z => decide (z ≤ c.toNat) && decide (c.toNat < z + 10)) =
        some base := by
      refine List.find?_eq_some_iff_append.mpr ⟨?_, before, after, hzeros, fun other hother => ?_⟩
      · simp only [Bool.and_eq_true, decide_eq_true_eq]
        omega
      · have hle := (List.pairwise_append.mp hapart).2.2 other hother base List.mem_cons_self
        have hfar : ¬ c.toNat < other + 10 := by omega
        simp [hfar]
    rw [digitValue?, hfind, Option.map_some, hc, Nat.add_sub_cancel_left]

end Text

namespace Number

open Text (IsDigit digitValue? digitValue?_eq_some_iff)

theorem not_isDigit_of_digitValue? {c : Char} (h : digitValue? c = none) (d : Nat) :
    ¬ IsDigit c d := by
  rw [← digitValue?_eq_some_iff, h]
  simp

/-! ## Rows of digits -/

/-- Digits with single underscores between them, and the numbers that the digits stand for. -/
inductive DigitRow : List Char → List Nat → Prop
  | single {c d} (h : IsDigit c d) : DigitRow [c] [d]
  | next {c d cs ds} (h : IsDigit c d) (rest : DigitRow cs ds) : DigitRow (c :: cs) (d :: ds)
  | parted {c d cs ds} (h : IsDigit c d) (rest : DigitRow cs ds) :
    DigitRow (c :: '_' :: cs) (d :: ds)

/-- What may follow a digit of a row. -/
inductive RowTail : List Char → List Nat → Prop
  | nil : RowTail [] []
  | row {cs ds} (h : DigitRow cs ds) : RowTail cs ds
  | underscore {cs ds} (h : DigitRow cs ds) : RowTail ('_' :: cs) ds

theorem digitRow_cons_iff {c : Char} {cs : List Char} {ds : List Nat} :
    DigitRow (c :: cs) ds ↔ ∃ d rest, ds = d :: rest ∧ IsDigit c d ∧ RowTail cs rest := by
  constructor
  · intro h
    cases h with
    | single h => exact ⟨_, [], rfl, h, .nil⟩
    | next h rest => exact ⟨_, _, rfl, h, .row rest⟩
    | parted h rest => exact ⟨_, _, rfl, h, .underscore rest⟩
  · rintro ⟨d, rest, rfl, h, htail⟩
    cases htail with
    | nil => exact .single h
    | row hrow => exact .next h hrow
    | underscore hrow => exact .parted h hrow

theorem not_digitRow_underscore {cs : List Char} {ds : List Nat} : ¬ DigitRow ('_' :: cs) ds := by
  rw [digitRow_cons_iff]
  rintro ⟨d, rest, -, h, -⟩
  exact not_isDigit_of_digitValue? (by decide) d h

theorem rowTail_underscore_iff {cs : List Char} {ds : List Nat} :
    RowTail ('_' :: cs) ds ↔ DigitRow cs ds := by
  constructor
  · intro h
    cases h with
    | row h => exact absurd h not_digitRow_underscore
    | underscore h => exact h
  · exact .underscore

theorem rowTail_cons_iff {c : Char} {cs : List Char} {ds : List Nat} (hc : c ≠ '_') :
    RowTail (c :: cs) ds ↔ DigitRow (c :: cs) ds := by
  constructor
  · intro h
    cases h with
    | row h => exact h
    | underscore => exact absurd rfl hc
  · exact .row

/-- Apart from underscores, digits are read in the same way whether one is due or not. -/
theorem digitsFrom?_cons_eq_some_iff {c : Char} {cs : List Char} {ds : List Nat} (hc : c ≠ '_')
    (due : Bool) :
    digitsFrom? due (c :: cs) = some ds ↔
      ∃ d rest, ds = d :: rest ∧ IsDigit c d ∧ digitsFrom? false cs = some rest := by
  rw [digitsFrom?, if_neg hc]
  simp only [Option.bind_eq_bind, Option.bind_eq_some_iff, digitValue?_eq_some_iff,
    Option.some.injEq]
  constructor
  · rintro ⟨d, hd, rest, hrest, rfl⟩
    exact ⟨d, rest, rfl, hd, hrest⟩
  · rintro ⟨d, rest, rfl, hd, hrest⟩
    exact ⟨d, hd, rest, hrest, rfl⟩

theorem digitsFrom?_eq_some_iff {cs : List Char} {ds : List Nat} :
    (digitsFrom? true cs = some ds ↔ DigitRow cs ds) ∧
      (digitsFrom? false cs = some ds ↔ RowTail cs ds) := by
  -- a row and what may follow a digit depend on each other, so both are followed at once
  induction cs generalizing ds with
  | nil =>
    refine ⟨⟨fun h => ?_, fun h => ?_⟩, fun h => ?_, fun h => ?_⟩
    · cases h
    · cases h
    · obtain rfl : [] = ds := Option.some.inj h
      exact .nil
    · cases h with
      | nil => rfl
      | row h => cases h
  | cons c cs ih =>
    by_cases hc : c = '_'
    · subst hc
      refine ⟨⟨fun h => ?_, fun h => absurd h not_digitRow_underscore⟩, ?_⟩
      · cases h
      · rw [rowTail_underscore_iff, ← ih.1]
        rfl
    · have hrow : ∀ due, digitsFrom? due (c :: cs) = some ds ↔ DigitRow (c :: cs) ds := by
        intro due
        rw [digitsFrom?_cons_eq_some_iff hc, digitRow_cons_iff]
        simp only [ih.2]
      exact ⟨hrow true, (hrow false).trans (rowTail_cons_iff hc).symm⟩

/-- **The rows of digits that are read.** -/
theorem readDigits?_eq_some_iff {cs : List Char} {ds : List Nat} :
    readDigits? cs = some ds ↔ DigitRow cs ds :=
  digitsFrom?_eq_some_iff.1

/-! ## Integers -/

/-- A sign, or none, and what the number is multiplied by. -/
inductive Sign : List Char → Int → Prop
  | none : Sign [] 1
  | plus : Sign ['+'] 1
  | minus : Sign ['-'] (-1)

/-- The text stands for the integer: a sign and a row of at most 4300 digits, the first of which
weighs most. -/
def Denotes (cs : List Char) (n : Int) : Prop :=
  ∃ sign factor row digits, cs = sign ++ row ∧ Sign sign factor ∧ DigitRow row digits ∧
    digits.length ≤ 4300 ∧ n = factor * (Nat.ofDigits 10 digits.reverse : Nat)

/-- Folding from the first digit on gives the sum of the digits by their weights. -/
theorem ofDigits_eq (ds : List Nat) : ofDigits ds = Nat.ofDigits 10 ds.reverse := by
  induction ds using List.reverseRecOn with
  | nil => rfl
  | append_singleton ds d ih =>
    rw [ofDigits_concat, ih, List.reverse_append, List.reverse_singleton, List.singleton_append,
      Nat.ofDigits_cons, Nat.add_comm]

theorem signed_eq {sign : List Char} {factor : Int} (h : Sign sign factor) (n : Nat) :
    signed (decide (factor = -1)) n = factor * n := by
  cases h with
  | none | plus => exact (Int.one_mul _).symm
  | minus => exact Int.neg_eq_neg_one_mul _

/-- A sign in front of a row of digits is told from it. -/
theorem readSign_append {sign row : List Char} {factor : Int} {ds : List Nat}
    (hsign : Sign sign factor) (hrow : DigitRow row ds) :
    readSign (sign ++ row) = (decide (factor = -1), row) := by
  cases hsign with
  | plus | minus => rfl
  | none =>
    cases row with
    | nil => cases hrow
    | cons c cs =>
      obtain ⟨d, rest, -, hd, -⟩ := digitRow_cons_iff.mp hrow
      have hother : c ≠ '+' ∧ c ≠ '-' := by
        constructor
        · rintro rfl
          exact not_isDigit_of_digitValue? (by decide) d hd
        · rintro rfl
          exact not_isDigit_of_digitValue? (by decide) d hd
      rw [List.nil_append, readSign]
      · rfl
      · rintro _ ⟨rfl, -⟩
        exact hother.1 rfl
      · rintro _ ⟨rfl, -⟩
        exact hother.2 rfl

theorem exists_sign (cs : List Char) :
    ∃ sign factor, Sign sign factor ∧ cs = sign ++ (readSign cs).2 ∧
      (readSign cs).1 = decide (factor = -1) := by
  unfold readSign
  split
  · exact ⟨_, _, .plus, rfl, rfl⟩
  · exact ⟨_, _, .minus, rfl, rfl⟩
  · exact ⟨_, _, .none, rfl, rfl⟩

/-- **The integers that are read** are those that the text stands for. -/
theorem readInteger_eq_ok_iff {cs : List Char} {n : Int} :
    readInteger cs = .ok n ↔ Denotes cs n := by
  constructor
  · intro h
    obtain ⟨sign, factor, hsign, hcs, hfactor⟩ := exists_sign cs
    simp only [readInteger] at h
    split at h
    · cases h
    · next ds hds =>
      split at h
      · cases h
      · next hlength =>
        refine ⟨sign, factor, _, ds, hcs, hsign, readDigits?_eq_some_iff.mp hds,
          Nat.not_lt.mp hlength, ?_⟩
        rw [← Except.ok.inj h, hfactor, signed_eq hsign, ofDigits_eq]
  · rintro ⟨sign, factor, row, ds, rfl, hsign, hrow, hlength, rfl⟩
    simp only [readInteger, readSign_append hsign hrow, readDigits?_eq_some_iff.mpr hrow]
    rw [maxDigits, if_neg (Nat.not_lt.mpr hlength), signed_eq hsign, ofDigits_eq]

/-- A numeral has as many digits as the number. -/
theorem length_natChars_le_iff {n k : Nat} (hk : 0 < k) :
    (natChars n).length ≤ k ↔ (Nat.digits 10 n).length ≤ k := by
  rw [Nat.digits_length_le_iff (by decide)]
  exact Nat.length_toDigits_le_iff (by decide) hk

theorem digitRow_natChars (n : Nat) : DigitRow (natChars n) ((natChars n).map asciiDigit) :=
  digitsFrom?_eq_some_iff.1.mp (digitsFrom?_of_isDigit (fun _ hc => isDigit_of_mem_natChars hc)
    fun _ => natChars_ne_nil n)

/-- **An integer is written as a text that stands for it**, unless it has too many digits. -/
theorem denotes_intChars {n : Int} (h : (Nat.digits 10 n.natAbs).length ≤ 4300) :
    Denotes (intChars n) n := by
  have hlength : (natChars n.natAbs).length ≤ 4300 := (length_natChars_le_iff (by decide)).mpr h
  have hvalue : ∀ k, Nat.ofDigits 10 ((natChars k).map asciiDigit).reverse = k := by
    intro k
    rw [← ofDigits_eq, ofDigits_natChars]
  cases n with
  | ofNat k =>
    refine ⟨[], 1, natChars k, _, rfl, .none, digitRow_natChars k, ?_, ?_⟩
    · rwa [List.length_map]
    · rw [hvalue, Int.one_mul]
      rfl
  | negSucc k =>
    refine ⟨['-'], -1, natChars (k + 1), _, rfl, .minus, digitRow_natChars (k + 1), ?_, ?_⟩
    · rwa [List.length_map]
    · rw [hvalue, Int.neg_one_mul]
      rfl

end Number

end StackLang
