/-!
# Tables of code points

A property of characters is given as a table of code point ranges. Looking a character up is a
plain search: the tables are short, and a search is easy to reason about.

## Main definitions

* `Text.inRanges`: whether a code point lies in one of the ranges of a table

## Main results

* `Text.inRanges_of_visible`: tables that leave the visible characters out
-/

namespace StackLang

namespace Text

/-- Whether `n` lies in one of the ranges of `table`. Both ends of a range belong to it. -/
def inRanges (table : List (Nat × Nat)) (n : Nat) : Bool :=
  table.any fun r => decide (r.1 ≤ n) && decide (n ≤ r.2)

theorem inRanges_eq_true_iff {table : List (Nat × Nat)} {n : Nat} :
    inRanges table n = true ↔ ∃ r ∈ table, r.1 ≤ n ∧ n ≤ r.2 := by
  simp [inRanges]

/-- The visible characters lie between the exclamation mark and the tilde, where the tables have
gaps. -/
theorem inRanges_of_visible {table : List (Nat × Nat)}
    (htable : (table.all fun r => r.2 < 0x21 || 0x7E < r.1) = true) {n : Nat} (hlow : 0x21 ≤ n)
    (hhigh : n ≤ 0x7E) : inRanges table n = false := by
  rw [Bool.eq_false_iff, ne_eq, inRanges_eq_true_iff]
  rintro ⟨r, hr, hfrom, hto⟩
  have hrange := List.all_eq_true.mp htable r hr
  simp only [Bool.or_eq_true, decide_eq_true_eq] at hrange
  omega

end Text

end StackLang
