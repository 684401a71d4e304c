/-!
# Fields of a text

A text cut at every occurrence of one separator. There is always one more field than there are
separators, so fields may be empty and the text can be put together again.

## Main definitions

* `Text.fields`: the fields between the separators

## Main results

* `Text.length_fields`: one more field than separators
* `Text.fields_append_cons`: a field ends at the separator after it
-/

namespace StackLang

namespace Text

/-- The parts of a text between the occurrences of `sep`. -/
def fields (sep : Char) : List Char → List (List Char)
  | [] => [[]]
  | c :: cs =>
    if c = sep then [] :: fields sep cs
    else match fields sep cs with
      | [] => [[c]]
      | f :: fs => (c :: f) :: fs

theorem fields_ne_nil (sep : Char) (cs : List Char) : fields sep cs ≠ [] := by
  cases cs with
  | nil => simp [fields]
  | cons c cs =>
    simp only [fields]
    split
    · simp
    · split <;> simp

/-- **One more field than separators.** -/
theorem length_fields (sep : Char) (cs : List Char) :
    (fields sep cs).length = cs.count sep + 1 := by
  induction cs with
  | nil => rfl
  | cons c cs ih =>
    simp only [fields]
    split
    · next h => simp [ih, h]
    · next h =>
      have hne := fields_ne_nil sep cs
      split
      · next he => exact absurd he hne
      · next f fs he =>
        have : ¬ (c == sep) = true := by simpa using h
        rw [he] at ih
        simpa [List.count_cons, this] using ih

/-- A text without separators is one field. -/
theorem fields_of_not_mem {sep : Char} {cs : List Char} (h : sep ∉ cs) : fields sep cs = [cs] := by
  induction cs with
  | nil => rfl
  | cons c cs ih =>
    obtain ⟨hc, hcs⟩ := not_or.mp (mt List.mem_cons.mpr h)
    rw [fields, if_neg (Ne.symm hc), ih hcs]

/-- A field ends at the separator after it. -/
theorem fields_append_cons {sep : Char} {cs : List Char} (h : sep ∉ cs) (rest : List Char) :
    fields sep (cs ++ sep :: rest) = cs :: fields sep rest := by
  induction cs with
  | nil => simp [fields]
  | cons c cs ih =>
    obtain ⟨hc, hcs⟩ := not_or.mp (mt List.mem_cons.mpr h)
    rw [List.cons_append, fields, if_neg (Ne.symm hc), ih hcs]

end Text

end StackLang
