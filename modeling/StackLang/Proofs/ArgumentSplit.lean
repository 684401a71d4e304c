import Mathlib.Data.List.Induction
import StackLang.Proofs.LeadingOptions

/-!
# How arguments are split

There is one way only to tell the options from the program: options as long as the arguments begin
with two dashes, then perhaps a bare `--`, then the program. The arguments are read in this way, and
each name has the value that the last option with this name gives to it.

Not everything can be said with options. A name that is empty or begins with `no-` can be switched
off but not on, since two dashes in front of it are read differently. All options that keep to this
can be given, with any program after them.

## Main definitions

* `Options.Split` — ways to split arguments
* `Options.LastNames` — the value that the last option with a name gives to it
* `Options.Expressible` — options that can be given

## Main results

* `Options.Split.unique` — there is one way to split arguments
* `Options.parse_of_split` — arguments are read as they are split
* `Options.lookup_foldl_assign` — the last option with a name counts
* `Options.parse_splits_uniquely` — how arguments are read, and what can be said with them
-/

namespace StackLang

namespace Options

/-! ## Splits -/

/-- The argument begins with two dashes. -/
def Dashed (arg : RawText) : Prop := (RawText.ofString "--").points <+: arg.points

/-- A way to write arguments as options, a bare `--` or nothing, and a program. Where no `--` stands
before it, the program does not begin with two dashes. -/
@[ext] structure Split (args : List RawText) where
  flags : List RawText
  mark : List RawText
  program : List RawText
  whole : args = flags ++ mark ++ program
  dashed : ∀ arg ∈ flags, Dashed arg ∧ arg ≠ "--"
  bare : mark = [RawText.ofString "--"] ∨ mark = []
  undashed : mark = [] → ∀ arg ∈ program.head?, ¬ Dashed arg

theorem classify_eq_separator_iff {arg : RawText} : classify arg = .separator ↔ arg = "--" := by
  constructor
  · intro h
    rw [classify] at h
    split at h
    · next heq => exact RawText.ext heq
    all_goals cases h
  · rintro rfl
    rfl

theorem isFlag_iff_dashed {arg : RawText} : isFlag arg = true ↔ Dashed arg ∧ arg ≠ "--" := by
  rw [isFlag, Bool.and_eq_true, List.isPrefixOf_iff_prefix, decide_eq_true_iff]
  rfl

theorem exists_classify_of_dashed {arg : RawText} (h : Dashed arg ∧ arg ≠ "--") :
    ∃ name value, classify arg = .flag name value :=
  (isFlag_iff arg).mp (isFlag_iff_dashed.mpr h)

theorem dashed_of_classify {arg name : RawText} {value : Bool}
    (h : classify arg = .flag name value) : Dashed arg ∧ arg ≠ "--" :=
  isFlag_iff_dashed.mp ((isFlag_iff arg).mpr ⟨name, value, h⟩)

theorem classify_eq_token_iff {arg : RawText} : classify arg = .token ↔ ¬ Dashed arg := by
  constructor
  · intro h hdashed
    by_cases hbare : arg = "--"
    · cases h.symm.trans (classify_eq_separator_iff.mpr hbare)
    · obtain ⟨name, value, hflag⟩ := exists_classify_of_dashed ⟨hdashed, hbare⟩
      cases h.symm.trans hflag
  · intro h
    cases harg : classify arg with
    | token => rfl
    | separator =>
      rw [classify_eq_separator_iff.mp harg] at h
      exact absurd List.prefix_rfl h
    | flag name value => exact absurd (dashed_of_classify harg).1 h

/-- Any arguments can be split. -/
theorem exists_split (args : List RawText) : Nonempty (Split args) := by
  induction args with
  | nil => exact ⟨⟨[], [], [], rfl, by simp, .inr rfl, by simp⟩⟩
  | cons arg args ih =>
    cases harg : classify arg with
    | token =>
      refine ⟨⟨[], [], arg :: args, rfl, by simp, .inr rfl, fun _ first hfirst => ?_⟩⟩
      obtain rfl := Option.mem_some_iff.mp hfirst
      exact classify_eq_token_iff.mp harg
    | separator =>
      obtain rfl := classify_eq_separator_iff.mp harg
      exact ⟨⟨[], ["--"], args, rfl, by simp, .inl rfl, by simp⟩⟩
    | flag name value =>
      obtain ⟨s⟩ := ih
      refine ⟨⟨arg :: s.flags, s.mark, s.program, ?_, ?_, s.bare, s.undashed⟩⟩
      · exact congrArg (arg :: ·) s.whole
      · exact List.forall_mem_cons.mpr ⟨dashed_of_classify harg, s.dashed⟩

/-- The options are what stands before the first argument that is none. -/
theorem Split.flags_eq {args : List RawText} (s : Split args) : s.flags = Options.flags args := by
  have hend : (s.mark ++ s.program).takeWhile isFlag = [] := by
    have hbare : isFlag "--" = false := by decide
    rcases s.bare with hmark | hmark
    · simp [hmark, hbare]
    · have hfree := s.undashed hmark
      cases hprogram : s.program with
      | nil => simp [hmark]
      | cons arg rest =>
        have harg : isFlag arg = false := by
          rw [Bool.eq_false_iff, ne_eq, isFlag_iff_dashed]
          exact fun h => hfree arg (by simp [hprogram]) h.1
        simp [hmark, harg]
  have hwhole := s.whole
  rw [List.append_assoc] at hwhole
  calc s.flags = (s.flags ++ (s.mark ++ s.program)).takeWhile isFlag := by
        rw [List.takeWhile_append_of_pos fun arg h => isFlag_iff_dashed.mpr (s.dashed arg h), hend,
          List.append_nil]
    _ = Options.flags args := congrArg (List.takeWhile isFlag) hwhole.symm

/-- **There is one way to split arguments.** -/
theorem Split.unique {args : List RawText} (s s' : Split args) : s = s' := by
  have hflags : s.flags = s'.flags := s.flags_eq.trans s'.flags_eq.symm
  have hrest : s.mark ++ s.program = s'.mark ++ s'.program := by
    have hwhole := s.whole.symm.trans s'.whole
    rw [hflags, List.append_assoc, List.append_assoc] at hwhole
    exact List.append_cancel_left hwhole
  -- a bare `--` cannot begin the program of the other split
  have hmark : ∀ {s s' : Split args}, s.mark ++ s.program = s'.mark ++ s'.program →
      s.mark = [RawText.ofString "--"] → s'.mark ≠ [] := by
    intro s s' hrest hbare hnone
    rw [hbare, hnone, List.nil_append] at hrest
    refine s'.undashed hnone "--" ?_ List.prefix_rfl
    rw [← hrest]
    rfl
  have hmarks : s.mark = s'.mark := by
    rcases s.bare with hs | hs <;> rcases s'.bare with hs' | hs'
    · rw [hs, hs']
    · exact absurd hs' (hmark hrest hs)
    · exact absurd hs (hmark hrest.symm hs')
    · rw [hs, hs']
  rw [hmarks] at hrest
  exact Split.ext hflags hmarks (List.append_cancel_left hrest)

/-! ## Reading -/

/-- The options after a further argument. -/
def assign (given : Options) (arg : RawText) : Options :=
  match classify arg with
  | .flag name value => given.set name value
  | _ => given

theorem assign_of_classify {arg name : RawText} {value : Bool}
    (h : classify arg = .flag name value) (given : Options) :
    assign given arg = given.set name value := by
  rw [assign, h]

theorem parseFrom_append {flags : List RawText} (h : ∀ arg ∈ flags, Dashed arg ∧ arg ≠ "--")
    (given : Options) (rest : List RawText) :
    parseFrom given (flags ++ rest) = parseFrom (flags.foldl assign given) rest := by
  induction flags generalizing given with
  | nil => rfl
  | cons arg flags ih =>
    obtain ⟨harg, hflags⟩ := List.forall_mem_cons.mp h
    obtain ⟨name, value, hflag⟩ := exists_classify_of_dashed harg
    rw [List.cons_append, parseFrom, hflag, List.foldl_cons, assign_of_classify hflag]
    exact ih hflags _

/-- **Arguments are read as they are split.** -/
theorem parse_of_split {args : List RawText} (s : Split args) :
    parse args = (s.flags.foldl assign [], s.program) := by
  obtain ⟨flags, mark, program, rfl, hflags, hmark, hprogram⟩ := s
  dsimp only
  rw [parse, List.append_assoc, parseFrom_append hflags]
  rcases hmark with rfl | rfl
  · rw [List.singleton_append, parseFrom, classify_eq_separator_iff.mpr rfl]
  · cases program with
    | nil => rfl
    | cons arg rest =>
      rw [List.nil_append, parseFrom, classify_eq_token_iff.mpr (hprogram rfl arg rfl)]

/-! ## The last option with a name -/

/-- The option gives the value to the name: `--no-` in front of a name switches it off, and two
dashes alone switch it on. -/
def Names (arg name : RawText) (value : Bool) : Prop :=
  arg = flag name value ∧ (value = true → ¬ (RawText.ofString "--no-").points <+: arg.points)

/-- The last of the options that give a value to the name gives this one. -/
def LastNames (flags : List RawText) (name : RawText) (value : Bool) : Prop :=
  ∃ before arg after, flags = before ++ arg :: after ∧ Names arg name value ∧
    ∀ later ∈ after, ∀ other, ¬ Names later name other

theorem isSwitch_iff {name : RawText} :
    IsSwitch name ↔
      flag name true ≠ "--" ∧ ¬ (RawText.ofString "--no-").points <+: (flag name true).points := by
  have hempty : flag name true = "--" ↔ name = "" := by
    rw [RawText.ext_iff, RawText.ext_iff, points_flag_true]
    exact List.cons_inj_right _ |>.trans (List.cons_inj_right _)
  have hno : (RawText.ofString "--no-").points <+: (flag name true).points ↔
      (RawText.ofString "no-").points <+: name.points := by
    rw [points_flag_true]
    exact List.prefix_cons_inj _ |>.trans (List.prefix_cons_inj _)
  rw [IsSwitch, ne_eq, ne_eq, hempty, hno]

/-- What is switched on can be switched on. -/
theorem isSwitch_of_classify {arg name : RawText} (h : classify arg = .flag name true) :
    IsSwitch name := by
  obtain rfl := eq_flag_of_classify h
  refine isSwitch_iff.mpr ⟨(dashed_of_classify h).2, fun hno => ?_⟩
  obtain ⟨rest, hrest⟩ := hno
  have hflag : flag name true = flag ⟨rest⟩ false := RawText.ext hrest.symm
  rw [hflag, classify_flag_false] at h
  cases h

theorem classify_eq_flag_iff {arg name : RawText} {value : Bool} (hbare : arg ≠ "--") :
    classify arg = .flag name value ↔ Names arg name value := by
  constructor
  · intro h
    refine ⟨eq_flag_of_classify h, ?_⟩
    rintro rfl
    rw [eq_flag_of_classify h]
    exact (isSwitch_iff.mp (isSwitch_of_classify h)).2
  · rintro ⟨rfl, hno⟩
    cases value with
    | false => exact classify_flag_false name
    | true => exact classify_flag (isSwitch_iff.mpr ⟨hbare, hno rfl⟩) true

theorem lastNames_concat {flags : List RawText} {arg name : RawText} {value : Bool} :
    LastNames (flags ++ [arg]) name value ↔
      Names arg name value ∨ (∀ other, ¬ Names arg name other) ∧ LastNames flags name value := by
  constructor
  · rintro ⟨before, last, after, hflags, hlast, hafter⟩
    rcases List.eq_nil_or_concat after with rfl | ⟨after, later, rfl⟩
    · obtain ⟨-, hsame⟩ := List.append_inj' hflags rfl
      exact .inl (List.singleton_inj.mp hsame ▸ hlast)
    · have hflags' : flags ++ [arg] = (before ++ last :: after) ++ [later] := by simpa using hflags
      obtain ⟨hfront, hsame⟩ := List.append_inj' hflags' rfl
      obtain rfl := List.singleton_inj.mp hsame
      refine .inr ⟨hafter arg (by simp), before, last, after, hfront, hlast, fun later hlater => ?_⟩
      exact hafter later (by simp [hlater])
  · rintro (hlast | ⟨hnone, before, last, after, rfl, hlast, hafter⟩)
    · exact ⟨flags, arg, [], rfl, hlast, by simp⟩
    · refine ⟨before, last, after ++ [arg], by simp, hlast, fun later hlater => ?_⟩
      rcases List.mem_append.mp hlater with hlater | hlater
      · exact hafter later hlater
      · obtain rfl := List.mem_singleton.mp hlater
        exact hnone

/-- **The last option with a name counts.** -/
theorem lookup_foldl_assign {flags : List RawText} (h : ∀ arg ∈ flags, Dashed arg ∧ arg ≠ "--")
    (name : RawText) (value : Bool) :
    (flags.foldl assign []).lookup name = some value ↔ LastNames flags name value := by
  induction flags using List.reverseRecOn with
  | nil => simp [LastNames]
  | append_singleton flags arg ih =>
    obtain ⟨hflags, hlast⟩ := List.forall_mem_append.mp h
    have harg : Dashed arg ∧ arg ≠ "--" := hlast arg List.mem_cons_self
    obtain ⟨other, given, hflag⟩ := exists_classify_of_dashed harg
    have hnames : ∀ n v, Names arg n v ↔ other = n ∧ given = v := by
      intro n v
      rw [← classify_eq_flag_iff harg.2, hflag, Argument.flag.injEq]
    rw [List.foldl_append, List.foldl_cons, List.foldl_nil, assign_of_classify hflag, lookup_set,
      lastNames_concat, hnames, ← ih hflags]
    by_cases hother : other = name
    · simp [hother, hnames]
    · simp [hother, hnames]

/-! ## What can be said -/

/-- Options that can be given: no name has two values, and what is on can be switched on. -/
structure Expressible (options : Options) : Prop where
  nodup : (options.map Prod.fst).Nodup
  isSwitch : ∀ name, (name, true) ∈ options → IsSwitch name

theorem set_of_not_mem {options : Options} {name : RawText} (h : name ∉ options.map Prod.fst)
    (value : Bool) : options.set name value = options ++ [(name, value)] := by
  induction options with
  | nil => rfl
  | cons entry rest ih =>
    obtain ⟨hne, hrest⟩ := not_or.mp (mt List.mem_cons.mpr h)
    rw [set, if_neg (Ne.symm hne), ih hrest, List.cons_append]

theorem map_fst_set_of_mem {options : Options} {name : RawText} (h : name ∈ options.map Prod.fst)
    (value : Bool) : (options.set name value).map Prod.fst = options.map Prod.fst := by
  induction options with
  | nil => cases h
  | cons entry rest ih =>
    rw [set]
    split
    · rfl
    · next hne =>
      have hrest : name ∈ rest.map Prod.fst := (List.mem_cons.mp h).resolve_left (Ne.symm hne)
      rw [List.map_cons, ih hrest, List.map_cons]

theorem mem_set {options : Options} {name other : RawText} {value v : Bool}
    (h : (other, v) ∈ options.set name value) :
    other = name ∧ v = value ∨ (other, v) ∈ options := by
  induction options with
  | nil => exact .inl (Prod.mk.inj (List.mem_singleton.mp h))
  | cons entry rest ih =>
    rw [set] at h
    split at h
    · next hname =>
      rcases List.mem_cons.mp h with hfirst | hrest
      · obtain ⟨rfl, rfl⟩ := Prod.mk.inj hfirst
        exact .inl ⟨hname, rfl⟩
      · exact .inr (List.mem_cons_of_mem _ hrest)
    · rcases List.mem_cons.mp h with hfirst | hrest
      · exact .inr (hfirst ▸ List.mem_cons_self)
      · exact (ih hrest).imp_right (List.mem_cons_of_mem _)

theorem Expressible.set {options : Options} (h : Expressible options) {name : RawText}
    {value : Bool} (hswitch : value = true → IsSwitch name) :
    Expressible (options.set name value) := by
  refine ⟨?_, fun other hother => ?_⟩
  · by_cases hmem : name ∈ options.map Prod.fst
    · rw [map_fst_set_of_mem hmem]
      exact h.nodup
    · rw [set_of_not_mem hmem, List.map_append]
      refine List.nodup_append.mpr ⟨h.nodup, by simp, fun other hother last hlast heq => ?_⟩
      obtain rfl : last = name := List.mem_singleton.mp hlast
      exact hmem (heq ▸ hother)
  · rcases mem_set hother with ⟨rfl, rfl⟩ | hmem
    · exact hswitch rfl
    · exact h.isSwitch other hmem

/-- Only such options are given. -/
theorem Expressible.foldl_assign {flags : List RawText}
    (hflags : ∀ arg ∈ flags, Dashed arg ∧ arg ≠ "--") {given : Options} (h : Expressible given) :
    Expressible (flags.foldl assign given) := by
  induction flags generalizing given with
  | nil => exact h
  | cons arg flags ih =>
    obtain ⟨harg, hrest⟩ := List.forall_mem_cons.mp hflags
    obtain ⟨name, value, hflag⟩ := exists_classify_of_dashed harg
    rw [List.foldl_cons, assign_of_classify hflag]
    refine ih hrest (h.set ?_)
    rintro rfl
    exact isSwitch_of_classify hflag

/-- The arguments that give all the options their values. -/
def written (options : Options) : List RawText := options.map fun option => flag option.1 option.2

theorem Expressible.classify_flag {options : Options} (h : Expressible options) {name : RawText}
    {value : Bool} (hmem : (name, value) ∈ options) :
    classify (flag name value) = .flag name value := by
  cases value with
  | false => exact classify_flag_false name
  | true => exact Options.classify_flag (h.isSwitch name hmem) true

theorem Expressible.dashed_of_mem_written {options : Options} (h : Expressible options)
    {arg : RawText} (harg : arg ∈ written options) : Dashed arg ∧ arg ≠ "--" := by
  obtain ⟨⟨name, value⟩, hmem, rfl⟩ := List.mem_map.mp harg
  exact dashed_of_classify (h.classify_flag hmem)

/-- All such options can be given. -/
theorem Expressible.foldl_written {options : Options} (h : Expressible options) :
    (written options).foldl assign [] = options := by
  induction options using List.reverseRecOn with
  | nil => rfl
  | append_singleton options entry ih =>
    obtain ⟨name, value⟩ := entry
    have hnodup := h.nodup
    rw [List.map_append, List.nodup_append] at hnodup
    have hbefore : Expressible options :=
      ⟨hnodup.1, fun other hother => h.isSwitch other (List.mem_append_left _ hother)⟩
    have hnew : name ∉ options.map Prod.fst := by
      intro hmem
      exact hnodup.2.2 name hmem name List.mem_cons_self rfl
    have hlast := h.classify_flag (List.mem_append_right options List.mem_cons_self)
    rw [written, List.map_append, List.foldl_append, ← written, ih hbefore, List.map_singleton,
      List.foldl_cons, List.foldl_nil, assign_of_classify hlast, set_of_not_mem hnew]

/-- **One way to read arguments, and what can be said with them.** All arguments can be split into
options and program in one way and no other. What is left after reading them is this program, and a
name has a value exactly when the last of these options with the name gives it the value. Options
come of some arguments exactly when no name stands twice and no name that is on is empty or begins
with `no-`. They can then be written out, with a `--` and any program at all after them, and are
read back together with the program. -/
theorem parse_splits_uniquely :
    (∀ args, ∃ s : Split args, (∀ other : Split args, other = s) ∧ (parse args).2 = s.program ∧
        ∀ name value, (parse args).1.lookup name = some value ↔ LastNames s.flags name value) ∧
      ∀ options : Options, ((∃ args, (parse args).1 = options) ↔ Expressible options) ∧
        (Expressible options → ∀ program,
          parse (written options ++ RawText.ofString "--" :: program) = (options, program)) := by
  have hback : ∀ options, Expressible options → ∀ program,
      parse (written options ++ RawText.ofString "--" :: program) = (options, program) := by
    intro options h program
    let s : Split (written options ++ RawText.ofString "--" :: program) :=
      ⟨written options, ["--"], program, by simp, fun _ => h.dashed_of_mem_written, .inl rfl,
        by simp⟩
    rw [parse_of_split s, h.foldl_written]
  refine ⟨fun args => ?_, fun options => ⟨⟨?_, fun h => ?_⟩, hback options⟩⟩
  · obtain ⟨s⟩ := exists_split args
    refine ⟨s, fun other => other.unique s, ?_, fun name value => ?_⟩
    · rw [parse_of_split s]
    · rw [parse_of_split s]
      exact lookup_foldl_assign s.dashed name value
  · rintro ⟨args, rfl⟩
    obtain ⟨s⟩ := exists_split args
    rw [parse_of_split s]
    exact .foldl_assign s.dashed ⟨List.nodup_nil, by simp⟩
  · exact ⟨_, congrArg Prod.fst (hback options h [])⟩

end Options

end StackLang
