import StackLang.Options

/-!
# Options in front of the program

Which value an option has is said by the arguments themselves. The options are the arguments up to
the first that does not begin with two dashes or is nothing but two dashes. Of those that name an
option, the last one counts.

A name can be switched on and off when it is not empty and does not begin with `no-`: two dashes in
front of any other name are read differently.

## Main definitions

* `Options.flags` — the arguments that are options
* `Options.switched` — the value that the last of them gives to a name

## Main results

* `Options.classify_flag` — what is read as an option with a value
* `Options.get_parse` — the last option with a name counts
-/

namespace StackLang

namespace Options

/-- Whether an argument is an option: two dashes, and something after them. -/
def isFlag (arg : RawText) : Bool :=
  [Point.char '-', Point.char '-'].isPrefixOf arg.points && arg ≠ "--"

/-- The options in front of the program. -/
def flags (args : List RawText) : List RawText := args.takeWhile isFlag

/-- The argument that gives a value to an option. -/
def flag (name : RawText) (value : Bool) : RawText :=
  RawText.ofString (if value then "--" else "--no-") ++ name

/-- The value that the last option with the name gives to it, or a default. -/
def switched (name : RawText) (default : Bool) (args : List RawText) : Bool :=
  let named := (flags args).reverse.find? fun arg => arg = flag name true || arg = flag name false
  (named.map fun arg => decide (arg = flag name true)).getD default

/-- The name can be switched on and off. -/
def IsSwitch (name : RawText) : Prop :=
  name ≠ "" ∧ ¬ (RawText.ofString "no-").points <+: name.points

/-! ## Single arguments -/

theorem points_flag_true (name : RawText) :
    (flag name true).points = .char '-' :: .char '-' :: name.points := rfl

theorem points_flag_false (name : RawText) :
    (flag name false).points
      = .char '-' :: .char '-' :: .char 'n' :: .char 'o' :: .char '-' :: name.points := rfl

/-- Any name can be switched off. -/
theorem classify_flag_false (name : RawText) :
    classify (flag name false) = .flag name false := by
  rw [classify, points_flag_false]
  rfl

/-- An option is read back as it was written. -/
theorem classify_flag {name : RawText} (h : IsSwitch name) (value : Bool) :
    classify (flag name value) = .flag name value := by
  cases value with
  | false => exact classify_flag_false name
  | true =>
    obtain ⟨hname, hno⟩ := h
    rw [classify, points_flag_true]
    split
    · next heq =>
      exact absurd (RawText.ext (List.cons.inj (List.cons.inj heq).2).2) hname
    · next rest heq =>
      refine absurd ⟨rest, ?_⟩ hno
      exact (List.cons.inj (List.cons.inj heq).2).2.symm
    · next rest _ _ heq =>
      rw [← (List.cons.inj (List.cons.inj heq).2).2]
    · next hnone => exact absurd rfl (hnone name.points)

/-- What is read as an option was written as one. -/
theorem eq_flag_of_classify {arg name : RawText} {value : Bool}
    (h : classify arg = .flag name value) : arg = flag name value := by
  rw [classify] at h
  split at h
  · cases h
  · next heq =>
    cases h
    exact RawText.ext heq
  · next heq =>
    cases h
    exact RawText.ext heq
  · cases h

theorem isFlag_iff (arg : RawText) :
    isFlag arg = true ↔ ∃ name value, classify arg = .flag name value := by
  rw [isFlag, Bool.and_eq_true, List.isPrefixOf_iff_prefix, decide_eq_true_iff]
  constructor
  · rintro ⟨⟨rest, hrest⟩, hne⟩
    rw [classify]
    split
    · next heq => exact absurd (RawText.ext heq) hne
    · next name _ => exact ⟨_, false, rfl⟩
    · next name _ _ => exact ⟨_, true, rfl⟩
    · next hnone => exact absurd hrest.symm (hnone rest)
  · rintro ⟨name, value, h⟩
    obtain rfl := eq_flag_of_classify h
    refine ⟨?_, ?_⟩
    · cases value with
      | false => exact ⟨_, (points_flag_false name).symm⟩
      | true => exact ⟨_, (points_flag_true name).symm⟩
    · intro hdashes
      have hseparator : classify "--" = .separator := by decide
      rw [hdashes, hseparator] at h
      cases h

/-- An argument names an option when it is read as one that gives it a value. -/
theorem eq_flag_iff {arg name other : RawText} {value : Bool} (hname : IsSwitch name)
    (h : classify arg = .flag other value) (wanted : Bool) :
    arg = flag name wanted ↔ other = name ∧ value = wanted := by
  constructor
  · rintro rfl
    rw [classify_flag hname] at h
    cases h
    exact ⟨rfl, rfl⟩
  · rintro ⟨rfl, rfl⟩
    exact eq_flag_of_classify h

/-! ## All arguments -/

theorem lookup_set (options : Options) (name other : RawText) (value : Bool) :
    (options.set name value).lookup other
      = if name = other then some value else options.lookup other := by
  induction options with
  | nil =>
    by_cases h : name = other
    · simp [set, h]
    · have hb : (other == name) = false := by simpa using Ne.symm h
      simp [set, h, List.lookup_cons, hb]
  | cons entry rest ih =>
    obtain ⟨n, v⟩ := entry
    rw [set]
    by_cases hn : n = name
    · subst hn
      rw [if_pos rfl, List.lookup_cons, List.lookup_cons]
      by_cases h : n = other
      · simp [h]
      · have hb : (other == n) = false := by simpa using Ne.symm h
        simp [h, hb]
    · rw [if_neg hn, List.lookup_cons, List.lookup_cons, ih]
      by_cases h : n = other
      · subst h
        simp [Ne.symm hn]
      · have hb : (other == n) = false := by simpa using Ne.symm h
        simp [hb]

theorem get_set (options : Options) (name other : RawText) (value default : Bool) :
    (options.set name value).get other default
      = if name = other then value else options.get other default := by
  rw [get, lookup_set, get]
  split <;> rfl

theorem switched_of_not_flag {arg : RawText} (h : isFlag arg = false) (name : RawText)
    (default : Bool) (args : List RawText) : switched name default (arg :: args) = default := by
  simp [switched, flags, h]

/-- An option in front sets the value unless a later one does. -/
theorem switched_cons {arg name other : RawText} {value : Bool} (hname : IsSwitch name)
    (h : classify arg = .flag other value) (default : Bool) (args : List RawText) :
    switched name default (arg :: args)
      = switched name (if other = name then value else default) args := by
  have hflag : isFlag arg = true := (isFlag_iff arg).mpr ⟨other, value, h⟩
  have htrue := eq_flag_iff hname h true
  have hfalse := eq_flag_iff hname h false
  rw [switched, switched, flags, List.takeWhile_cons_of_pos hflag, List.reverse_cons,
    List.find?_append, ← flags]
  cases (flags args).reverse.find? fun arg => arg = flag name true || arg = flag name false with
  | some later => rfl
  | none =>
    by_cases hother : other = name
    · cases value <;> simp [htrue, hfalse, hother]
    · simp [htrue, hfalse, hother]

/-- **The last option with a name counts.** -/
theorem get_parseFrom {name : RawText} (hname : IsSwitch name) (default : Bool) (given : Options)
    (args : List RawText) :
    (parseFrom given args).1.get name default = switched name (given.get name default) args := by
  induction args generalizing given with
  | nil => rfl
  | cons arg args ih =>
    rw [parseFrom]
    cases h : classify arg with
    | token | separator =>
      have hflag : isFlag arg = false := by
        rw [Bool.eq_false_iff, ne_eq, isFlag_iff, h]
        rintro ⟨other, value, hother⟩
        cases hother
      exact (switched_of_not_flag hflag name _ args).symm
    | flag other value => rw [ih, get_set, switched_cons hname h]

/-- **The last option with a name counts**, and without one the default does. -/
theorem get_parse {name : RawText} (hname : IsSwitch name) (default : Bool) (args : List RawText) :
    (parse args).1.get name default = switched name default args :=
  get_parseFrom hname default [] args

end Options

end StackLang
