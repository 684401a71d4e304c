import StackLang.FileTree

/-!
# Paths and where they lead

A path that was read from a text is read back from its own text, since its names are neither empty
nor single dots and hold no slash. So the path in a command line is the path that was put there.

Where a path leads depends on directories and links only. As long as all of these stay, a path that
led somewhere leads to the same place, whatever is done to files.

## Main definitions

* `Path.Proper` — paths that are their own reading
* `FileTree.SameLayout` — trees that differ in plain files only
* `FileTree.takesFile` — places where a plain file can be put and taken away
* `FileTree.Free` — places where there is nothing, or a plain file

## Main results

* `Path.ofString_text` — a proper path is read back from its text
* `FileTree.follow_induction` — what is so for every walk is so with any number of links
* `FileTree.reach_of_locate` — a path leads to its own place, unless a link is there
* `FileTree.SameLayout.locate`, `FileTree.SameLayout.reach` — a path leads to the same place
* `FileTree.locate_child` — where a name in a directory leads
-/

namespace StackLang

/-! ## Texts of paths -/

/-- Fields are what is left when the list is split at the separators. -/
theorem Text.fields_eq_splitOn (sep : Char) (cs : List Char) :
    Text.fields sep cs = cs.splitOn sep := by
  induction cs with
  | nil => rfl
  | cons c cs ih =>
    rw [fields, ih, List.splitOn_cons_eq_if_modifyHead]
    by_cases hc : c = sep
    · rw [if_pos hc, if_pos (beq_iff_eq.mpr hc)]
    · rw [if_neg hc, if_neg (mt beq_iff_eq.mp hc)]
      cases h : cs.splitOn sep with
      | nil => exact absurd h (List.splitOn_ne_nil sep cs)
      | cons f fs => rfl

namespace Path

/-- A name that is kept when a path is read. -/
structure ProperName (n : String) : Prop where
  nonempty : n ≠ ""
  notDot : n ≠ "."
  noSlash : '/' ∉ n.toList

instance (n : String) : Decidable (ProperName n) :=
  decidable_of_iff (n ≠ "" ∧ n ≠ "." ∧ '/' ∉ n.toList)
    ⟨fun h => ⟨h.1, h.2.1, h.2.2⟩, fun h => ⟨h.nonempty, h.notDot, h.noSlash⟩⟩

/-- The path has no name that would be dropped or cut when it is read. -/
def Proper (p : Path) : Prop := ∀ n ∈ p.names, ProperName n

instance (p : Path) : Decidable p.Proper :=
  inferInstanceAs (Decidable (∀ n ∈ p.names, ProperName n))

/-- The names of a path with slashes between them. -/
def joined (names : List String) : List Char := ['/'].intercalate (names.map String.toList)

theorem namesOf_slash (cs : List Char) : namesOf ('/' :: cs) = namesOf cs := by
  simp [namesOf, Text.fields]

theorem namesOf_joined {names : List String} (h : ∀ n ∈ names, ProperName n) :
    namesOf (joined names) = names := by
  by_cases hne : names = []
  · subst hne
    rfl
  · have hfields : Text.fields '/' (joined names) = names.map String.toList := by
      rw [Text.fields_eq_splitOn, joined]
      apply List.splitOn_intercalate
      · intro cs hcs
        obtain ⟨n, hn, rfl⟩ := List.mem_map.mp hcs
        exact (h n hn).noSlash
      · simpa using hne
    have hmap : (names.map String.toList).map String.ofList = names := by
      simp [Function.comp_def]
    rw [namesOf, hfields, hmap, List.filter_eq_self]
    intro n hn
    simp [(h n hn).nonempty, (h n hn).notDot]

/-- The names of a proper path do not begin with a slash. -/
theorem head?_joined_ne {names : List String} (h : ∀ n ∈ names, ProperName n) :
    (joined names).head? ≠ some '/' := by
  cases names with
  | nil => exact nofun
  | cons n ns =>
    have hn := h n List.mem_cons_self
    obtain ⟨c, cs, hcs⟩ : ∃ c cs, n.toList = c :: cs :=
      List.exists_cons_of_ne_nil (mt String.toList_eq_nil_iff.mp hn.nonempty)
    have hhead : (joined (n :: ns)).head? = some c := by
      cases ns <;> simp [joined, List.intercalate_cons_cons, hcs]
    rw [hhead]
    rintro ⟨⟩
    exact hn.noSlash (by rw [hcs]; exact List.mem_cons_self)

theorem anchorOf_append {cs : List Char} (h : cs.head? ≠ some '/') (anchor : Anchor) :
    anchorOf (anchor.text.toList ++ cs) = anchor := by
  cases cs with
  | nil => cases anchor <;> rfl
  | cons c cs =>
    have hc : c ≠ '/' := fun hc => h (congrArg some hc)
    cases anchor with
    | here =>
      change anchorOf (c :: cs) = .here
      simp [anchorOf, hc]
    | root =>
      change anchorOf ('/' :: c :: cs) = .root
      simp [anchorOf, hc]
    | doubleRoot =>
      change anchorOf ('/' :: '/' :: c :: cs) = .doubleRoot
      simp [anchorOf, hc]

theorem namesOf_append (anchor : Anchor) (cs : List Char) :
    namesOf (anchor.text.toList ++ cs) = namesOf cs := by
  cases anchor with
  | here => rfl
  | root => exact namesOf_slash cs
  | doubleRoot => exact (namesOf_slash _).trans (namesOf_slash cs)

/-- **A proper path is read back from its text.** -/
theorem ofString_text {p : Path} (h : p.Proper) : ofString p.text = p := by
  obtain ⟨anchor, names⟩ := p
  by_cases hdot : (anchor = .here && names = []) = true
  · obtain ⟨rfl, rfl⟩ : anchor = .here ∧ names = [] := by simpa using hdot
    rfl
  · have htext : (text ⟨anchor, names⟩).toList = anchor.text.toList ++ joined names := by
      rw [text, if_neg hdot, String.toList_append, String.toList_intercalate]
      rfl
    rw [ofString, htext, anchorOf_append (head?_joined_ne h), namesOf_append, namesOf_joined h]

/-- A path has no names, or a last one. -/
theorem eq_nil_or_concat (p : Path) :
    (∃ anchor, p = ⟨anchor, []⟩) ∨ ∃ anchor names n, p = ⟨anchor, names ++ [n]⟩ := by
  obtain ⟨anchor, names⟩ := p
  rcases List.eq_nil_or_concat names with rfl | ⟨names, n, rfl⟩
  · exact .inl ⟨anchor, rfl⟩
  · exact .inr ⟨anchor, names, n, by rw [List.concat_eq_append]⟩

theorem ofString_of_properName {n : String} (h : ProperName n) : ofString n = ⟨.here, [n]⟩ := by
  have hproper : Proper ⟨.here, [n]⟩ := fun m hm => List.mem_singleton.mp hm ▸ h
  have htext : text ⟨.here, [n]⟩ = n := by
    simp [text, Anchor.text]
  rw [← ofString_text hproper, htext]

end Path

namespace FileTree

theorem hasNul_append (s t : String) : hasNul (s ++ t) = (hasNul s || hasNul t) := by
  simp [hasNul]

/-- A path holds a null character if one of its names does. -/
theorem hasNul_text (p : Path) : hasNul p.text = p.names.any hasNul := by
  have hjoined : ∀ names, hasNul ("/".intercalate names) = names.any hasNul := by
    intro names
    induction names with
    | nil => rfl
    | cons n ns ih =>
      cases ns with
      | nil => simp
      | cons m ns =>
        rw [String.intercalate_cons_cons, hasNul_append, hasNul_append, ih, List.any_cons]
        rw [show hasNul "/" = false from rfl]
        simp
  obtain ⟨anchor, names⟩ := p
  rw [Path.text]
  split
  · next h =>
    obtain ⟨-, rfl⟩ : anchor = .here ∧ names = [] := by simpa using h
    rfl
  · have hanchor : hasNul anchor.text = false := by cases anchor <;> rfl
    rw [hasNul_append, hanchor, hjoined, Bool.false_or]

/-! ## The steps of a walk -/

variable {t t' t'' : FileTree} {p : Path} {loc : Location}

theorem enter_eq_ok_iff {base : Location} {name : String} :
    t.enter base name = .ok loc ↔
      t.get? base = some .directory ∧ isLongName name = false ∧
        loc = if name = ".." then base.dropLast else base ++ [name] := by
  rw [enter]
  cases hbase : t.get? base with
  | none => simp
  | some node =>
    cases node with
    | directory =>
      by_cases hlong : isLongName name = true
      · simp [hlong]
      · simp [hlong, eq_comm]
    | file bytes | link target | shared number => simp

/-- A way to follow names from a location. -/
abbrev Route := Location → List String → Except Errno Location

theorem walk_cons_eq_ok_iff {turn : Route} {start : Location} {name : String}
    {names : List String} :
    t.walk turn start (name :: names) = .ok loc ↔
      ∃ next, t.enter start name = .ok next ∧
        ((∃ target, t.link? next = some target ∧
            turn (startFrom start target.anchor) (target.names ++ names) = .ok loc) ∨
          t.link? next = none ∧ t.walk turn next names = .ok loc) := by
  rw [walk]
  cases t.enter start name with
  | error errno => simp
  | ok next =>
    cases hlink : t.link? next with
    | none => simp [hlink]
    | some target => simp [hlink]

/-- **Following names, link by link.** What is so when no link may be followed, and for every walk
if it is so wherever the walk is turned, is so for any number of links. -/
theorem follow_induction (t t' : FileTree) (R : Route → Route → Prop)
    (hstop : R (fun _ _ => .error .tooManyLinks) (fun _ _ => .error .tooManyLinks))
    (hwalk : ∀ {turn turn'}, R turn turn' → R (t.walk turn) (t'.walk turn')) (links : Nat) :
    R (t.follow links) (t'.follow links) := by
  induction links with
  | zero => exact hwalk hstop
  | succ links ih => exact hwalk ih

theorem ask_eq_ok_iff {α : Type} {answer : Except Errno α} {a : α} :
    ask p answer = .ok a ↔ hasNul p.text = false ∧ answer = .ok a := by
  by_cases hnul : hasNul p.text = true
  · simp [ask, hnul]
  · cases answer <;> simp [ask, hnul]

theorem hasNul_of_ask {α : Type} {answer : Except Errno α} (h : ask p answer = .error .nul) :
    hasNul p.text = true := by
  by_cases hnul : hasNul p.text = true
  · exact hnul
  · cases answer <;> simp [ask, hnul] at h

theorem reach_eq_ok_iff :
    t.reach p = .ok loc ↔
      hasNul p.text = false ∧ t.follow maxLinks (t.start p.anchor) p.names = .ok loc :=
  ask_eq_ok_iff

theorem locate_nil_eq_ok_iff {anchor : Anchor} :
    t.locate ⟨anchor, []⟩ = .ok loc ↔ t.reach ⟨anchor, []⟩ = .ok loc := by
  rw [locate, reach]
  rfl

/-- Where a path without names leads depends on the working directory only. -/
theorem locate_nil_of_here {anchor : Anchor} (hhere : t'.here = t.here)
    (h : t'.locate ⟨anchor, []⟩ = .ok loc) : t.locate ⟨anchor, []⟩ = .ok loc := by
  simp only [locate, start, hhere] at h ⊢
  exact h

/-- **The place of a last name** is where it is found in what the names before it lead to. -/
theorem locate_concat_eq_ok_iff_enter {anchor : Anchor} {names : List String} {n : String} :
    t.locate ⟨anchor, names ++ [n]⟩ = .ok loc ↔
      hasNul n = false ∧ ∃ base, t.reach ⟨anchor, names⟩ = .ok base ∧ t.enter base n = .ok loc := by
  have hnul : hasNul (Path.text ⟨anchor, names ++ [n]⟩) = false ↔
      hasNul (Path.text ⟨anchor, names⟩) = false ∧ hasNul n = false := by
    simp only [hasNul_text, List.any_append, List.any_cons, List.any_nil, Bool.or_false,
      Bool.or_eq_false_iff]
  rw [locate, ask_eq_ok_iff, hnul]
  simp only [List.getLast?_concat, List.dropLast_concat, reach_eq_ok_iff]
  cases t.follow maxLinks (t.start anchor) names with
  | error errno => simp
  | ok base =>
    simp only [Except.ok.injEq]
    constructor
    · rintro ⟨⟨hnames, hn⟩, h⟩
      exact ⟨hn, base, ⟨hnames, rfl⟩, h⟩
    · rintro ⟨hn, _, ⟨hnames, rfl⟩, h⟩
      exact ⟨⟨hnames, hn⟩, h⟩

/-- A path that leads somewhere holds no null character. -/
theorem hasNul_of_locate (hloc : t.locate p = .ok loc) : hasNul p.text = false :=
  (ask_eq_ok_iff.mp hloc).1

/-- The place of a path and where it leads to differ only if the place is a link. -/
theorem follow_concat {links : Nat} {start base : Location} {names : List String} {n : String}
    (hbase : t.follow links start names = .ok base) (hn : t.enter base n = .ok loc)
    (hlink : t.link? loc = none) : t.follow links start (names ++ [n]) = .ok loc := by
  -- the walk is the same up to the last name, with as many links left at each of its turns
  refine follow_induction t t (fun turn _ => ∀ {names start}, turn start names = .ok base →
    turn start (names ++ [n]) = .ok loc) (fun h => by cases h) ?_ links hbase
  intro turn _ hturn names
  induction names with
  | nil =>
    rintro start ⟨⟩
    exact walk_cons_eq_ok_iff.mpr ⟨loc, hn, .inr ⟨hlink, rfl⟩⟩
  | cons m names ih =>
    intro start h
    obtain ⟨next, hnext, ⟨target, htarget, h⟩ | ⟨hnone, h⟩⟩ := walk_cons_eq_ok_iff.mp h
    · refine walk_cons_eq_ok_iff.mpr ⟨next, hnext, .inl ⟨target, htarget, ?_⟩⟩
      exact List.append_assoc target.names names [n] ▸ hturn h
    · exact walk_cons_eq_ok_iff.mpr ⟨next, hnext, .inr ⟨hnone, ih h⟩⟩

/-- What leads somewhere has led to the place of its last name before. -/
theorem exists_of_follow_concat {links : Nat} {start : Location} {names : List String} {n : String}
    (h : t.follow links start (names ++ [n]) = .ok loc) :
    ∃ base place, t.follow links start names = .ok base ∧ t.enter base n = .ok place ∧
      (t.link? place = none → place = loc) := by
  refine follow_induction t t (fun turn _ => ∀ {names start},
    turn start (names ++ [n]) = .ok loc →
      ∃ base place, turn start names = .ok base ∧ t.enter base n = .ok place ∧
        (t.link? place = none → place = loc)) (fun h => by cases h) ?_ links h
  intro turn _ hturn names
  induction names with
  | nil =>
    intro start h
    obtain ⟨place, hplace, ⟨target, htarget, -⟩ | ⟨-, hloc⟩⟩ := walk_cons_eq_ok_iff.mp h
    · refine ⟨start, place, rfl, hplace, fun hnone => ?_⟩
      cases htarget.symm.trans hnone
    · exact ⟨start, place, rfl, hplace, fun _ => Except.ok.inj hloc⟩
  | cons m names ih =>
    intro start h
    obtain ⟨next, hnext, ⟨target, htarget, h⟩ | ⟨hnone, h⟩⟩ := walk_cons_eq_ok_iff.mp h
    · obtain ⟨base, place, hbase, hrest⟩ :=
        hturn ((List.append_assoc target.names names [n]).symm ▸ h)
      exact ⟨base, place, walk_cons_eq_ok_iff.mpr ⟨next, hnext, .inl ⟨target, htarget, hbase⟩⟩,
        hrest⟩
    · obtain ⟨base, place, hbase, hrest⟩ := ih h
      exact ⟨base, place, walk_cons_eq_ok_iff.mpr ⟨next, hnext, .inr ⟨hnone, hbase⟩⟩, hrest⟩

/-- **A path leads to its own place**, if no link is there. -/
theorem reach_of_locate (hloc : t.locate p = .ok loc) (hlink : t.link? loc = none) :
    t.reach p = .ok loc := by
  have hnul := hasNul_of_locate hloc
  rcases p.eq_nil_or_concat with ⟨anchor, rfl⟩ | ⟨anchor, names, n, rfl⟩
  · exact locate_nil_eq_ok_iff.mp hloc
  · obtain ⟨-, base, hbase, hn⟩ := locate_concat_eq_ok_iff_enter.mp hloc
    exact reach_eq_ok_iff.mpr ⟨hnul, follow_concat (reach_eq_ok_iff.mp hbase).2 hn hlink⟩

/-- A path that leads somewhere has a place, and leads there if no link is there. -/
theorem exists_locate_of_reach (hreach : t.reach p = .ok loc) :
    ∃ place, t.locate p = .ok place ∧ (t.link? place = none → place = loc) := by
  rcases p.eq_nil_or_concat with ⟨anchor, rfl⟩ | ⟨anchor, names, n, rfl⟩
  · exact ⟨loc, locate_nil_eq_ok_iff.mpr hreach, fun _ => rfl⟩
  · obtain ⟨hnul, hfollow⟩ := reach_eq_ok_iff.mp hreach
    obtain ⟨base, place, hbase, hplace, heq⟩ := exists_of_follow_concat hfollow
    rw [hasNul_text, List.any_append, Bool.or_eq_false_iff] at hnul
    refine ⟨place, locate_concat_eq_ok_iff_enter.mpr ⟨by simpa using hnul.2, base, ?_, hplace⟩, heq⟩
    exact reach_eq_ok_iff.mpr ⟨hasNul_text _ ▸ hnul.1, hbase⟩

/-! ## Trees with the same layout -/

section

variable (hdirs : ∀ loc, t.get? loc = some .directory → t'.get? loc = some .directory)
  (hlinks : ∀ loc, t'.link? loc = t.link? loc)
include hdirs

theorem enter_of_directories {base : Location} {name : String}
    (h : t.enter base name = .ok loc) : t'.enter base name = .ok loc := by
  obtain ⟨hdir, hname⟩ := enter_eq_ok_iff.mp h
  exact enter_eq_ok_iff.mpr ⟨hdirs base hdir, hname⟩

include hlinks

theorem follow_of_directories {links : Nat} {start : Location} {names : List String}
    (hl : t.follow links start names = .ok loc) : t'.follow links start names = .ok loc := by
  refine follow_induction t t' (fun turn turn' => ∀ {names start},
    turn start names = .ok loc → turn' start names = .ok loc) (fun h => h) ?_ links hl
  intro turn turn' hturn names
  induction names with
  | nil => exact fun h => h
  | cons n names ih =>
    intro start h
    obtain ⟨next, hnext, h⟩ := walk_cons_eq_ok_iff.mp h
    refine walk_cons_eq_ok_iff.mpr ⟨next, enter_of_directories hdirs hnext, ?_⟩
    rw [hlinks next]
    exact h.imp (fun ⟨target, htarget, h⟩ => ⟨target, htarget, hturn h⟩)
      fun ⟨hnone, h⟩ => ⟨hnone, ih h⟩

/-- A path leads to the same location in a tree that has at least the same directories, and the
same links. -/
theorem reach_of_directories (hhere : t.here = t'.here) (hl : t.reach p = .ok loc) :
    t'.reach p = .ok loc := by
  obtain ⟨hnul, hfollow⟩ := reach_eq_ok_iff.mp hl
  have hstart : t'.start p.anchor = t.start p.anchor := by rw [start, start, hhere]
  rw [reach_eq_ok_iff, hstart]
  exact ⟨hnul, follow_of_directories hdirs hlinks hfollow⟩

/-- A path has the same place in a tree that has at least the same directories, and the same
links. -/
theorem locate_of_directories (hhere : t.here = t'.here) (hl : t.locate p = .ok loc) :
    t'.locate p = .ok loc := by
  rcases p.eq_nil_or_concat with ⟨anchor, rfl⟩ | ⟨anchor, names, n, rfl⟩
  · exact locate_nil_of_here hhere hl
  · obtain ⟨hnul, base, hbase, hn⟩ := locate_concat_eq_ok_iff_enter.mp hl
    exact locate_concat_eq_ok_iff_enter.mpr ⟨hnul, base,
      reach_of_directories hdirs hlinks hhere hbase, enter_of_directories hdirs hn⟩

end

theorem link?_eq_some_iff {target : Path} :
    t.link? loc = some target ↔ t.get? loc = some (.link target) := by
  rw [link?]
  cases t.get? loc with
  | none => simp
  | some node => cases node <;> simp

/-- A plain file is no link. -/
theorem link?_eq_none_of_isFile {node : FileNode} (h : t.get? loc = some node)
    (hfile : node.isFile = true) : t.link? loc = none := by
  cases node <;> simp_all [link?, FileNode.isFile]

/-- The trees differ in plain files only. -/
structure SameLayout (t t' : FileTree) : Prop where
  here : t.here = t'.here
  sealed : t.sealed = t'.sealed
  node : ∀ loc node, node.isFile = false → (t.get? loc = some node ↔ t'.get? loc = some node)

/-- Whether a plain file can be put at a location and taken away again. -/
def takesFile (t : FileTree) (loc : Location) : Bool :=
  (t.get? loc).all FileNode.isFile && !t.isSealed loc && !t.isSealed loc.dropLast

/-- There is nothing at the location, or a plain file. -/
def Free (t : FileTree) (loc : Location) : Prop := (t.get? loc).all FileNode.isFile = true

theorem free_of_takesFile (h : t.takesFile loc = true) : t.Free loc := by
  simp only [takesFile, Bool.and_eq_true] at h
  exact h.1.1

theorem isSealed_of_takesFile (h : t.takesFile loc = true) :
    t.isSealed loc.dropLast = false := by
  simp only [takesFile, Bool.and_eq_true, Bool.not_eq_true'] at h
  exact h.2

theorem free_of_none (h : t.get? loc = none) : t.Free loc := by
  rw [Free, h]
  rfl

theorem free_of_file {bytes : Bytes} (h : t.get? loc = some (.file bytes)) : t.Free loc := by
  rw [Free, h]
  rfl

theorem Free.ne (h : t.Free loc) {node : FileNode} (hnode : node.isFile = false) :
    t.get? loc ≠ some node := by
  intro heq
  rw [Free, heq] at h
  cases hnode.symm.trans h

theorem Free.link? (h : t.Free loc) : t.link? loc = none := by
  cases hlink : t.link? loc with
  | none => rfl
  | some target => exact absurd (link?_eq_some_iff.mp hlink) (h.ne rfl)

/-- What may hold a plain file is not the root. -/
theorem Free.ne_nil (h : t.Free loc) : loc ≠ [] := by
  rintro rfl
  exact h.ne rfl rfl

namespace SameLayout

theorem refl (t : FileTree) : SameLayout t t := ⟨rfl, rfl, fun _ _ _ => Iff.rfl⟩

theorem trans (h : SameLayout t t') (h' : SameLayout t' t'') : SameLayout t t'' :=
  ⟨h.here.trans h'.here, h.sealed.trans h'.sealed,
    fun loc node hnode => (h.node loc node hnode).trans (h'.node loc node hnode)⟩

theorem directory (h : SameLayout t t') (loc : Location) :
    t.get? loc = some .directory ↔ t'.get? loc = some .directory := h.node loc .directory rfl

theorem link? (h : SameLayout t t') (loc : Location) : t.link? loc = t'.link? loc := by
  apply Option.ext
  intro target
  rw [link?_eq_some_iff, link?_eq_some_iff]
  exact h.node loc _ rfl

theorem free (h : SameLayout t t') (hfree : t.Free loc) : t'.Free loc := by
  rw [Free]
  cases hnode : t'.get? loc with
  | none => rfl
  | some node =>
    cases hfile : node.isFile with
    | true => exact hfile
    | false => exact absurd ((h.node loc node hfile).mpr hnode) (hfree.ne hfile)

theorem takesFile (h : SameLayout t t') (htakes : t.takesFile loc = true) :
    t'.takesFile loc = true := by
  have hfree : (t'.get? loc).all FileNode.isFile = true := h.free (free_of_takesFile htakes)
  have hsealed : t'.isSealed = t.isSealed := by
    funext other
    rw [isSealed, isSealed, h.sealed]
  simp only [FileTree.takesFile, Bool.and_eq_true] at htakes ⊢
  rw [hsealed]
  exact ⟨⟨hfree, htakes.1.2⟩, htakes.2⟩

/-- A plain file can be put where none but a plain file is. -/
theorem set (h : t.Free loc) (bytes : Bytes) : SameLayout t (t.set loc (.file bytes)) := by
  refine ⟨rfl, rfl, fun other node hnode => ?_⟩
  rw [get?_set t h.ne_nil]
  by_cases ho : other = loc
  · subst ho
    rw [if_pos rfl]
    refine ⟨fun heq => absurd heq (h.ne hnode), ?_⟩
    rintro ⟨⟩
    cases hnode
  · rw [if_neg ho]

/-- A plain file can be taken away. -/
theorem erase (h : t.Free loc) : SameLayout t (t.erase loc) := by
  refine ⟨rfl, rfl, fun other node hnode => ?_⟩
  rw [get?_erase t h.ne_nil]
  by_cases ho : other = loc
  · subst ho
    simp [h.ne hnode]
  · rw [if_neg ho]

/-- **A path has the same place** in a tree with the same layout. -/
theorem locate (h : SameLayout t t') (hl : t.locate p = .ok loc) : t'.locate p = .ok loc :=
  locate_of_directories (fun other => (h.directory other).mp) (fun other => (h.link? other).symm)
    h.here hl

/-- **A path leads to the same location** in a tree with the same layout. -/
theorem reach (h : SameLayout t t') (hl : t.reach p = .ok loc) : t'.reach p = .ok loc :=
  reach_of_directories (fun other => (h.directory other).mp) (fun other => (h.link? other).symm)
    h.here hl

end SameLayout

/-! ## Files in a directory -/

/-- A name that can be looked up in a directory and stays there. -/
structure PlainName (n : String) : Prop extends Path.ProperName n where
  notUp : n ≠ ".."
  noNul : hasNul n = false
  short : isLongName n = false

instance (n : String) : Decidable (PlainName n) :=
  decidable_of_iff (Path.ProperName n ∧ n ≠ ".." ∧ hasNul n = false ∧ isLongName n = false)
    ⟨fun h => ⟨h.1, h.2.1, h.2.2.1, h.2.2.2⟩,
      fun h => ⟨h.toProperName, h.notUp, h.noNul, h.short⟩⟩

/-- **Where a name in a directory leads.** -/
theorem locate_child (hloc : t.reach p = .ok loc) (hdir : t.get? loc = some .directory)
    {n : String} (hn : PlainName n) :
    t.locate ⟨p.anchor, p.names ++ [n]⟩ = .ok (loc ++ [n]) := by
  refine locate_concat_eq_ok_iff_enter.mpr ⟨hn.noNul, loc, hloc, ?_⟩
  exact enter_eq_ok_iff.mpr ⟨hdir, hn.short, by rw [if_neg hn.notUp]⟩

theorem write_of_locate (hloc : t.locate p = .ok loc) (htakes : t.takesFile loc = true)
    (bytes : Bytes) : t.write p bytes = .ok (t.set loc (.file bytes)) := by
  have hfree := free_of_takesFile htakes
  have hreach := reach_of_locate hloc hfree.link?
  simp only [takesFile, Bool.and_eq_true, Bool.not_eq_true'] at htakes
  obtain ⟨⟨-, hopen⟩, hup⟩ := htakes
  simp only [write, hreach, bind, Except.bind]
  cases hnode : t.get? loc with
  | none => simp [hup, pure, Except.pure]
  | some node =>
    cases node with
    | file old => simp [hopen, pure, Except.pure]
    | directory | link target | shared number => exact absurd hnode (hfree.ne rfl)

theorem read_of_locate (hloc : t.locate p = .ok loc) {bytes : Bytes}
    (hfile : t.get? loc = some (.file bytes)) : t.read p = .ok bytes := by
  simp only [read, reach_of_locate hloc (link?_eq_none_of_isFile hfile rfl), bind, Except.bind,
    hfile]
  rfl

theorem remove_of_locate (hloc : t.locate p = .ok loc) {bytes : Bytes}
    (hfile : t.get? loc = some (.file bytes)) (hopen : t.isSealed loc.dropLast = false) :
    t.remove p = .ok (t.erase loc) := by
  simp [remove, hloc, bind, Except.bind, hfile, hopen, pure, Except.pure]

theorem remove_of_get?_eq_none (hloc : t.locate p = .ok loc) (hnone : t.get? loc = none) :
    t.remove p = .error (.os ⟨.notFound, p.text⟩) := by
  simp only [remove, hloc, bind, Except.bind, hnone]
  rfl

/-- Nothing is made where a directory is. -/
theorem makeDirectories_of_reach (hreach : t.reach p = .ok loc)
    (hdir : t.get? loc = some .directory) : t.makeDirectories p = (t, .ok ()) := by
  obtain ⟨place, hplace, hlink⟩ := exists_locate_of_reach hreach
  -- the place of the path is the directory, or a link to it
  obtain ⟨node, hnode⟩ : ∃ node, t.get? place = some node := by
    cases htarget : t.link? place with
    | none => exact ⟨.directory, hlink htarget ▸ hdir⟩
    | some target => exact ⟨.link target, link?_eq_some_iff.mp htarget⟩
  have hexists : t.makeDirectory p = .error (.os ⟨.fileExists, p.text⟩) := by
    simp only [makeDirectory, make, hplace, bind, Except.bind, hnode]
    rfl
  have hsettle : ∀ e, t.settle p e = .ok () := by
    intro e
    simp [settle, isDirectory, hreach, hdir]
  rw [makeDirectories, hasNul_of_locate hplace, if_neg Bool.false_ne_true]
  cases hnames : p.names.reverse with
  | nil => rfl
  | cons n ns =>
    have hpath : (⟨p.anchor, (n :: ns).reverse⟩ : Path) = p := by
      rw [← hnames, List.reverse_reverse]
    rw [makeDirectoriesFrom, hpath, hexists]
    dsimp only
    rw [hsettle]

end FileTree

end StackLang
