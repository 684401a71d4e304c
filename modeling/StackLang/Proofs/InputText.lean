import Mathlib.Data.List.TakeWhile
import StackLang.Inputs
import StackLang.Proofs.IntegerText

/-!
# How inputs are written

The two inputs of a program are given in one text, and this text is taken apart in three steps: it
is cut at the comma, blanks are dropped at the ends of the two sides, and an integer is read from
what is left of each. Each step has a description that does not say how it is done, and put together
they describe the texts that are accepted. All other texts are refused in one of two ways, and which
one it is depends on the number of commas alone, whatever is wrong with the two sides.

Printed integers are among what is accepted, with any blanks around them: neither blanks nor
integers hold a comma, and an integer neither begins nor ends with a blank.

## Main definitions

* `Text.StripsTo` — what is left of a text when its ends are dropped
* `Inputs.Written` — the texts that stand for two integers

## Main results

* `Text.fields_eq_pair_iff` — texts with two fields
* `Text.trim_eq_iff` — what dropping the ends leaves
* `Inputs.parse_accepts_exactly` — what is accepted, and how all else is refused
* `Inputs.parse_printed` — printed integers are read back
-/

namespace StackLang

namespace Text

/-! ## Two fields -/

theorem exists_fields_pair {sep : Char} {cs : List Char} (h : cs.count sep = 1) :
    ∃ left right, fields sep cs = [left, right] :=
  List.length_eq_two.mp (by rw [length_fields, h])

/-- **A text has two fields** when it has one separator, which stands between them. -/
theorem fields_eq_pair_iff {sep : Char} {cs left right : List Char} :
    fields sep cs = [left, right] ↔ cs = left ++ sep :: right ∧ sep ∉ left ∧ sep ∉ right := by
  constructor
  · intro h
    have hlength : cs.count sep + 1 = 2 := by rw [← length_fields, h]; rfl
    have hmem : sep ∈ cs := List.count_pos_iff.mp (by omega)
    obtain ⟨before, after, rfl, hbefore⟩ := List.eq_append_cons_of_mem hmem
    have hafter : sep ∉ after := by
      rw [List.count_append, List.count_eq_zero.mpr hbefore, List.count_cons_self] at hlength
      exact List.count_eq_zero.mp (by omega)
    rw [fields_append_cons hbefore, fields_of_not_mem hafter] at h
    obtain ⟨rfl, rfl⟩ : before = left ∧ after = right := by simpa using h
    exact ⟨rfl, hbefore, hafter⟩
  · rintro ⟨rfl, hleft, hright⟩
    rw [fields_append_cons hleft, fields_of_not_mem hright]

/-! ## Ends of a text -/

/-- Without the characters with property `p` at both ends, `core` is left of the text. -/
def StripsTo (p : Char → Bool) (cs core : List Char) : Prop :=
  ∃ before after, cs = before ++ core ++ after ∧ (∀ c ∈ before, p c = true) ∧
    (∀ c ∈ after, p c = true) ∧ (∀ c ∈ core.head?, p c = false) ∧ ∀ c ∈ core.getLast?, p c = false

variable {p : Char → Bool} {cs core : List Char}

theorem eq_false_of_mem_head?_dropWhile {c : Char} (h : c ∈ (cs.dropWhile p).head?) :
    p c = false := by
  have hnot := List.head?_dropWhile_not p cs
  rwa [Option.mem_def.mp h] at hnot

theorem dropWhile_of_head? (h : ∀ c ∈ cs.head?, p c = false) : cs.dropWhile p = cs := by
  cases cs with
  | nil => rfl
  | cons c cs => exact List.dropWhile_cons_of_neg (by simp [h c rfl])

theorem stripsTo_trim (p : Char → Bool) (cs : List Char) : StripsTo p cs (trim p cs) := by
  have hback : cs.dropWhile p =
      trim p cs ++ ((cs.dropWhile p).reverse.takeWhile p).reverse := by
    rw [trim, ← List.reverse_append, List.takeWhile_append_dropWhile, List.reverse_reverse]
  refine ⟨cs.takeWhile p, ((cs.dropWhile p).reverse.takeWhile p).reverse, ?_, ?_, ?_, ?_, ?_⟩
  · rw [List.append_assoc, ← hback, List.takeWhile_append_dropWhile]
  · intro c hc
    exact List.mem_takeWhile_imp hc
  · intro c hc
    exact List.mem_takeWhile_imp (List.mem_reverse.mp hc)
  · intro c hc
    have hfirst : c ∈ (cs.dropWhile p).head? := by
      rw [hback, List.head?_append, Option.mem_def.mp hc]
      rfl
    exact eq_false_of_mem_head?_dropWhile hfirst
  · intro c hc
    rw [trim, List.getLast?_reverse] at hc
    exact eq_false_of_mem_head?_dropWhile hc

/-- **What dropping the ends leaves** is all that could be meant. -/
theorem trim_eq_iff : trim p cs = core ↔ StripsTo p cs core := by
  constructor
  · rintro rfl
    exact stripsTo_trim p cs
  · rintro ⟨before, after, rfl, hbefore, hafter, hhead, hlast⟩
    have hreverse : ∀ c ∈ after.reverse, p c = true := fun c hc => hafter c (List.mem_reverse.mp hc)
    have hcore : core.reverse.dropWhile p = core.reverse :=
      dropWhile_of_head? (by rwa [List.head?_reverse])
    rw [trim, List.append_assoc, List.dropWhile_append_of_pos hbefore]
    cases core with
    | nil =>
      rw [List.nil_append, List.dropWhile_eq_nil_iff.mpr hafter]
      rfl
    | cons c core =>
      have hfront : (c :: core ++ after).dropWhile p = c :: core ++ after :=
        dropWhile_of_head? hhead
      rw [hfront, List.reverse_append, List.dropWhile_append_of_pos hreverse, hcore,
        List.reverse_reverse]

theorem isBlank_of_mem_intChars {n : Int} {c : Char} (h : c ∈ Number.intChars n) :
    isBlank c = false := by
  have hrange : 0x2D ≤ c.toNat ∧ c.toNat < 0x30 + 10 := by
    rcases Number.isDigit_or_eq_of_mem_intChars h with hdigit | rfl
    · have := Number.toNat_of_isDigit hdigit
      omega
    · decide
  exact inRanges_of_visible (by decide) (by omega) (by omega)

/-- An integer is all that is left between blanks. -/
theorem stripsTo_intChars {before after : List Char} (hbefore : ∀ c ∈ before, isBlank c = true)
    (hafter : ∀ c ∈ after, isBlank c = true) (n : Int) :
    StripsTo isBlank (before ++ Number.intChars n ++ after) (Number.intChars n) := by
  refine ⟨before, after, rfl, hbefore, hafter, fun c hc => ?_, fun c hc => ?_⟩
  · exact isBlank_of_mem_intChars (List.mem_of_mem_head? hc)
  · exact isBlank_of_mem_intChars (List.mem_of_mem_getLast? hc)

end Text

namespace Inputs

open Text (fields trim isBlank StripsTo)
open Number (Denotes readInteger readInteger_eq_ok_iff)

/-! ## What is accepted -/

/-- The integer stands on one side of the comma, with blanks around it. -/
def StandsIn (side : List Char) (n : Int) : Prop :=
  ∃ core, StripsTo isBlank side core ∧ Denotes core n

/-- The text stands for the two integers: it has one comma and an integer on each side. -/
def Written (raw : String) (a b : Int) : Prop :=
  ∃ left right, raw.toList = left ++ ',' :: right ∧ ',' ∉ left ∧ ',' ∉ right ∧
    StandsIn left a ∧ StandsIn right b

theorem standsIn_iff {side : List Char} {n : Int} :
    StandsIn side n ↔ readInteger (trim isBlank side) = .ok n := by
  rw [readInteger_eq_ok_iff]
  constructor
  · rintro ⟨core, hcore, hn⟩
    rwa [Text.trim_eq_iff.mpr hcore]
  · intro h
    exact ⟨_, Text.stripsTo_trim isBlank side, h⟩

variable {raw : String} {a b : Int}

/-- A text without exactly one comma is refused for this. -/
theorem parse_of_count_ne (h : raw.toList.count ',' ≠ 1) :
    parse raw = .error (.configuration
      ("Expected two comma-separated program inputs, got '" ++ raw ++ "'")) := by
  have hlength := Text.length_fields ',' raw.toList
  rw [parse]
  split
  · next heq =>
    have htwo := congrArg List.length heq
    rw [List.length_map, hlength] at htwo
    exact absurd (Nat.succ.inj htwo) h
  · rfl

theorem parse_of_written (h : Written raw a b) : parse raw = .ok (a, b) := by
  obtain ⟨left, right, hraw, hleft, hright, ha, hb⟩ := h
  rw [parse, Text.fields_eq_pair_iff.mpr ⟨hraw, hleft, hright⟩]
  simp only [List.map_cons, List.map_nil, standsIn_iff.mp ha, standsIn_iff.mp hb]

/-- A text with one comma stands for two integers, or is refused for its sides. -/
theorem written_or_refused (h : raw.toList.count ',' = 1) :
    (∃ a b, Written raw a b) ∨ parse raw =
      .error (.configuration ("Program inputs must be integers, got '" ++ raw ++ "'")) := by
  obtain ⟨left, right, hfields⟩ := Text.exists_fields_pair h
  obtain ⟨hraw, hleft, hright⟩ := Text.fields_eq_pair_iff.mp hfields
  rw [parse, hfields]
  simp only [List.map_cons, List.map_nil]
  cases ha : readInteger (trim isBlank left) with
  | error e => exact .inr rfl
  | ok a =>
    cases hb : readInteger (trim isBlank right) with
    | error e => exact .inr rfl
    | ok b =>
      exact .inl ⟨a, b, left, right, hraw, hleft, hright, standsIn_iff.mpr ha, standsIn_iff.mpr hb⟩

/-- A text is accepted for what it stands for, or there is a fault of configuration. -/
theorem parse_cases (raw : String) :
    (∃ a b, Written raw a b ∧ parse raw = .ok (a, b)) ∨
      ∃ message, parse raw = .error (.configuration message) := by
  by_cases hone : raw.toList.count ',' = 1
  · rcases written_or_refused hone with ⟨a, b, h⟩ | h
    · exact .inl ⟨a, b, h, parse_of_written h⟩
    · exact .inr ⟨_, h⟩
  · exact .inr ⟨_, parse_of_count_ne hone⟩

/-- **What is accepted, and how all else is refused.** Two integers are read from a text exactly
when it has one comma and the two sides, without the blanks at their ends, stand for the integers:
each is a sign or none and a row of at most 4300 digits of any scripts, with single underscores only
between digits. A text without exactly one comma is refused for that, and every other text for its
sides. In both cases the fault is one of configuration and repeats the text as it is; there are no
other faults. -/
theorem parse_accepts_exactly (raw : String) :
    (∀ a b, parse raw = .ok (a, b) ↔ Written raw a b) ∧
      (raw.toList.count ',' ≠ 1 → parse raw = .error (.configuration
        ("Expected two comma-separated program inputs, got '" ++ raw ++ "'"))) ∧
      (raw.toList.count ',' = 1 → (¬ ∃ a b, Written raw a b) → parse raw = .error (.configuration
        ("Program inputs must be integers, got '" ++ raw ++ "'"))) ∧
      ∀ f, parse raw = .error f → f.kind? = some "configuration" := by
  refine ⟨fun a b => ⟨fun h => ?_, parse_of_written⟩, parse_of_count_ne,
    fun hone => (written_or_refused hone).resolve_left, fun f hf => ?_⟩
  · rcases parse_cases raw with ⟨a', b', hwritten, hparse⟩ | ⟨message, hparse⟩
    · cases hparse.symm.trans h
      exact hwritten
    · cases hparse.symm.trans h
  · rcases parse_cases raw with ⟨a, b, -, hparse⟩ | ⟨message, hparse⟩
    · cases hparse.symm.trans hf
    · cases hparse.symm.trans hf
      rfl

example : parse "\u2003+1_\u0664,-\uff100 " = .ok (14, 0) := by decide +kernel

/-! ## Printed integers -/

/-- An integer is found between blanks. -/
theorem standsIn_printed {before after : List Char} (hbefore : ∀ c ∈ before, isBlank c = true)
    (hafter : ∀ c ∈ after, isBlank c = true) {n : Int}
    (hn : (Nat.digits 10 n.natAbs).length ≤ 4300) :
    StandsIn (before ++ Number.intChars n ++ after) n :=
  ⟨_, Text.stripsTo_intChars hbefore hafter n, Number.denotes_intChars hn⟩

/-- There is no comma in a printed integer with blanks around it. -/
theorem comma_not_mem {before after : List Char} (hbefore : ∀ c ∈ before, isBlank c = true)
    (hafter : ∀ c ∈ after, isBlank c = true) (n : Int) :
    ',' ∉ before ++ Number.intChars n ++ after := by
  have hcomma : isBlank ',' = false := by decide
  simp only [List.mem_append, not_or]
  refine ⟨⟨fun h => ?_, fun h => ?_⟩, fun h => ?_⟩
  · cases hcomma.symm.trans (hbefore _ h)
  · rcases Number.isDigit_or_eq_of_mem_intChars h with hdigit | hminus
    · exact absurd hdigit (by decide)
    · exact absurd hminus (by decide)
  · cases hcomma.symm.trans (hafter _ h)

/-- **Printed integers are read back**, with any blanks around them, as long as they have no more
than 4300 digits. -/
theorem parse_printed {a b : Int} {w₁ w₂ w₃ w₄ : String}
    (ha : (Nat.digits 10 a.natAbs).length ≤ 4300) (hb : (Nat.digits 10 b.natAbs).length ≤ 4300)
    (h₁ : ∀ c ∈ w₁.toList, isBlank c = true) (h₂ : ∀ c ∈ w₂.toList, isBlank c = true)
    (h₃ : ∀ c ∈ w₃.toList, isBlank c = true) (h₄ : ∀ c ∈ w₄.toList, isBlank c = true) :
    parse (w₁ ++ Number.int a ++ w₂ ++ "," ++ w₃ ++ Number.int b ++ w₄) = .ok (a, b) := by
  refine parse_of_written ⟨w₁.toList ++ Number.intChars a ++ w₂.toList,
    w₃.toList ++ Number.intChars b ++ w₄.toList, ?_, comma_not_mem h₁ h₂ a, comma_not_mem h₃ h₄ b,
    standsIn_printed h₁ h₂ ha, standsIn_printed h₃ h₄ hb⟩
  simp [Number.int]

/-- One of the integers is as long as can be, and the blanks around it are of several kinds. -/
theorem parse_printed_longest :
    parse ("\u3000\t" ++ Number.int (-(10 ^ 4300 - 1 : Nat)) ++ "\u00a0" ++ "," ++ "\n\u2003\x1c"
      ++ Number.int 0 ++ "\u2028") = .ok (-(10 ^ 4300 - 1 : Nat), 0) := by
  have hlong : (Nat.digits 10 (-((10 ^ 4300 - 1 : Nat) : Int)).natAbs).length ≤ 4300 := by
    have hlt : ∀ k, 10 ^ k - 1 < 10 ^ k := fun k => Nat.sub_one_lt (Nat.pow_pos (by decide)).ne'
    rw [Int.natAbs_neg, Int.natAbs_natCast, Nat.digits_length_le_iff (by decide)]
    exact hlt _
  have hzero : (Nat.digits 10 (0 : Int).natAbs).length ≤ 4300 := by simp
  exact parse_printed hlong hzero (List.all_eq_true.mp (by decide))
    (List.all_eq_true.mp (by decide)) (List.all_eq_true.mp (by decide))
    (List.all_eq_true.mp (by decide))

end Inputs

end StackLang
