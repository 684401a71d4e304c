import StackLang.Assembly
import StackLang.Proofs.Numeral
import StackLang.Proofs.Paths

/-!
# The paths of staged files

A staged file is written under a drawn name with an ending, and the name may hold slashes: the part
up to the last slash then leads to another directory, and only the rest is the name of the file.
What is put at the end of a name never changes where the name leads to but only the last name on the
way. So the two files of an assembly lie side by side, and the files of assemblies that number their
names do too.

## Main definitions

* `Path.Beside` — paths of files in the same directory
* `Assembly.Role`, `Assembly.stagedPath` — the two files of an assembly
* `Assembly.numbered` — the files under a numbered name

## Main results

* `Path.exists_join_ofString` — a name with an ending, taken from a directory
* `FileTree.locate_concat_eq_ok_iff` — where a path leads, by its last name
* `FileTree.locate_beside`, `FileTree.location_ne_of_beside` — files side by side can be found
  together, at different places
* `Assembly.under_beside`, `Assembly.file_numbered_beside` — staged files lie side by side
* `Assembly.file_numbered_inj` — numbered files have different paths
-/

namespace StackLang

/-! ## Names with an ending -/

namespace Text

/-- What is added at the end of a text without a further separator is added to its last field. -/
theorem exists_fields_append (sep : Char) (cs : List Char) :
    ∃ front last, ∀ ds, sep ∉ ds → fields sep (cs ++ ds) = front ++ [last ++ ds] := by
  induction cs with
  | nil => exact ⟨[], [], fun ds hds => fields_of_not_mem hds⟩
  | cons c cs ih =>
    obtain ⟨front, last, hfields⟩ := ih
    by_cases hc : c = sep
    · refine ⟨[] :: front, last, fun ds hds => ?_⟩
      rw [List.cons_append, fields, if_pos hc, hfields ds hds]
      rfl
    · cases front with
      | nil =>
        refine ⟨[], c :: last, fun ds hds => ?_⟩
        rw [List.cons_append, fields, if_neg hc, hfields ds hds]
        rfl
      | cons f front =>
        refine ⟨(c :: f) :: front, last, fun ds hds => ?_⟩
        rw [List.cons_append, fields, if_neg hc, hfields ds hds]
        rfl

theorem not_mem_of_mem_fields {sep : Char} {cs f : List Char} (h : f ∈ fields sep cs) :
    sep ∉ f := by
  induction cs generalizing f with
  | nil =>
    obtain rfl : f = [] := List.mem_singleton.mp h
    exact List.not_mem_nil
  | cons c cs ih =>
    rw [fields] at h
    split at h
    · rcases List.mem_cons.mp h with rfl | h
      · exact List.not_mem_nil
      · exact ih h
    · next hc =>
      cases hfields : fields sep cs with
      | nil => exact absurd hfields (fields_ne_nil sep cs)
      | cons g gs =>
        rw [hfields] at h ih
        rcases List.mem_cons.mp h with rfl | h
        · exact mt List.mem_cons.mp (not_or_intro (Ne.symm hc) (ih List.mem_cons_self))
        · exact ih (List.mem_cons_of_mem g h)

end Text

namespace Path

/-- A path that was read from a text is proper. -/
theorem proper_ofString (s : String) : (ofString s).Proper := by
  intro n hn
  obtain ⟨hmem, hkept⟩ := List.mem_filter.mp hn
  obtain ⟨f, hf, rfl⟩ := List.mem_map.mp hmem
  obtain ⟨hnonempty, hdot⟩ : String.ofList f ≠ "" ∧ String.ofList f ≠ "." := by
    simpa using hkept
  refine ⟨hnonempty, hdot, ?_⟩
  rw [String.toList_ofList]
  exact Text.not_mem_of_mem_fields hf

theorem Proper.join {p q : Path} (hp : p.Proper) (hq : q.Proper) : (p.join q).Proper := by
  intro n hn
  rw [Path.join] at hn
  split at hn
  · rcases List.mem_append.mp hn with hn | hn
    · exact hp n hn
    · exact hq n hn
  · exact hq n hn

/-- An ending of a file name: three characters or more, none of them a slash. -/
structure Extension (s : String) : Prop where
  long : 3 ≤ s.toList.length
  noSlash : '/' ∉ s.toList

instance (s : String) : Decidable (Extension s) :=
  decidable_of_iff (3 ≤ s.toList.length ∧ '/' ∉ s.toList)
    ⟨fun h => ⟨h.1, h.2⟩, fun h => ⟨h.long, h.noSlash⟩⟩

theorem Extension.append {s t : String} (hs : '/' ∉ s.toList) (ht : Extension t) :
    Extension (s ++ t) := by
  constructor
  · have := ht.long
    rw [String.toList_append, List.length_append]
    omega
  · rw [String.toList_append, List.mem_append]
    exact not_or_intro hs ht.noSlash

/-- A name with an extension is none of the short names that mean something else. -/
theorem Extension.append_ne {t : String} (ht : Extension t) (s : String) {n : String}
    (hn : n.toList.length ≤ 2) : s ++ t ≠ n := by
  rintro rfl
  have := ht.long
  rw [String.toList_append, List.length_append] at hn
  omega

theorem anchorOf_append_cons {cs : List Char} {d : Char} (ds : List Char) (h : d ≠ '/') :
    anchorOf (cs ++ d :: ds) = anchorOf cs := by
  rcases cs with _ | ⟨a, _ | ⟨b, _ | ⟨c, cs⟩⟩⟩
  · simp [anchorOf, h]
  · by_cases ha : a = '/' <;> simp [anchorOf, h, ha]
  · by_cases ha : a = '/' <;> by_cases hb : b = '/' <;> simp [anchorOf, h, ha, hb]
  · by_cases ha : a = '/' <;> by_cases hb : b = '/' <;> by_cases hc : c = '/' <;>
      simp [anchorOf, ha, hb, hc]

theorem Extension.anchorOf_append {t : String} (ht : Extension t) (cs : List Char) :
    anchorOf (cs ++ t.toList) = anchorOf cs := by
  obtain ⟨d, ds, hds⟩ := List.exists_cons_of_length_pos (Nat.lt_of_lt_of_le (by decide) ht.long)
  have hd : d ≠ '/' := by
    rintro rfl
    exact ht.noSlash (by rw [hds]; exact List.mem_cons_self)
  rw [hds]
  exact anchorOf_append_cons ds hd

/-- **A name with an extension.** Which directory it is in does not depend on the extension. -/
theorem exists_ofString_append (s : String) :
    ∃ front last, ∀ t, Extension t →
      ofString (s ++ t) = ⟨anchorOf s.toList, front ++ [last ++ t]⟩ := by
  obtain ⟨front, last, hfields⟩ := Text.exists_fields_append '/' s.toList
  refine ⟨(front.map String.ofList).filter fun n => n ≠ "" && n ≠ ".", String.ofList last,
    fun t ht => ?_⟩
  have hlast : String.ofList (last ++ t.toList) = String.ofList last ++ t := by
    rw [String.ofList_append, String.ofList_toList]
  have hnonempty : String.ofList last ++ t ≠ "" := ht.append_ne _ (by decide)
  have hdot : String.ofList last ++ t ≠ "." := ht.append_ne _ (by decide)
  rw [ofString, String.toList_append, ht.anchorOf_append, namesOf, hfields _ ht.noSlash,
    List.map_append, List.filter_append, List.map_singleton, hlast]
  simp [hnonempty, hdot]

/-- **A name with an extension, taken from a directory.** -/
theorem exists_join_ofString (directory : Path) (s : String) :
    ∃ anchor front last, ∀ t, Extension t →
      directory.join (ofString (s ++ t)) = ⟨anchor, front ++ [last ++ t]⟩ := by
  obtain ⟨front, last, hread⟩ := exists_ofString_append s
  by_cases hhere : anchorOf s.toList = .here
  · refine ⟨directory.anchor, directory.names ++ front, last, fun t ht => ?_⟩
    rw [hread t ht, join, if_pos hhere, List.append_assoc]
  · refine ⟨anchorOf s.toList, front, last, fun t ht => ?_⟩
    rw [hread t ht, join, if_neg hhere]

/-- Both paths are files in the same directory: only their last names may differ. -/
def Beside (p q : Path) : Prop :=
  ∃ anchor front m n, p = ⟨anchor, front ++ [m]⟩ ∧ q = ⟨anchor, front ++ [n]⟩ ∧ m ≠ ".." ∧ n ≠ ".."

end Path

/-! ## Files side by side -/

namespace FileTree

variable {t t' : FileTree} {p q : Path} {loc loc' : Location}

/-- **Where a path leads, by its last name.** -/
theorem locate_concat_eq_ok_iff {anchor : Anchor} {names : List String} {n : String}
    (hn : n ≠ "..") :
    t.locate ⟨anchor, names ++ [n]⟩ = .ok loc ↔
      hasNul n = false ∧ isLongName n = false ∧
        ∃ base, t.reach ⟨anchor, names⟩ = .ok base ∧ t.get? base = some .directory ∧
          loc = base ++ [n] := by
  rw [locate_concat_eq_ok_iff_enter]
  simp only [enter_eq_ok_iff, if_neg hn]
  constructor
  · rintro ⟨hnul, base, hbase, hdir, hlong, rfl⟩
    exact ⟨hnul, hlong, base, hbase, hdir, rfl⟩
  · rintro ⟨hnul, hlong, base, hbase, hdir, rfl⟩
    exact ⟨hnul, base, hbase, hdir, hlong, rfl⟩

section

variable (hlinks : ∀ loc, t'.link? loc = t.link? loc)

theorem enter_unique {base : Location} {name : String} (h : t.enter base name = .ok loc)
    (h' : t'.enter base name = .ok loc') : loc = loc' := by
  obtain ⟨-, -, rfl⟩ := enter_eq_ok_iff.mp h
  obtain ⟨-, -, rfl⟩ := enter_eq_ok_iff.mp h'
  rfl

include hlinks

theorem follow_unique {links : Nat} {start : Location} {names : List String}
    (h : t.follow links start names = .ok loc) (h' : t'.follow links start names = .ok loc') :
    loc = loc' := by
  refine follow_induction t t' (fun turn turn' => ∀ {names start}, turn start names = .ok loc →
    turn' start names = .ok loc' → loc = loc') (fun h => by cases h) ?_ links h h'
  intro turn turn' hturn names
  induction names with
  | nil => exact fun h h' => Except.ok.inj (h.symm.trans h')
  | cons n names ih =>
    intro start h h'
    obtain ⟨next, hnext, h⟩ := walk_cons_eq_ok_iff.mp h
    obtain ⟨next', hnext', h'⟩ := walk_cons_eq_ok_iff.mp h'
    obtain rfl := enter_unique hnext hnext'
    rw [hlinks next] at h'
    rcases h with ⟨target, htarget, h⟩ | ⟨hnone, h⟩
    · rcases h' with ⟨target', htarget', h'⟩ | ⟨hnone', -⟩
      · obtain rfl := Option.some.inj (htarget.symm.trans htarget')
        exact hturn h h'
      · cases htarget.symm.trans hnone'
    · rcases h' with ⟨target', htarget', -⟩ | ⟨-, h'⟩
      · cases hnone.symm.trans htarget'
      · exact ih h h'

variable (hhere : t'.here = t.here)
include hhere

theorem reach_unique (h : t.reach p = .ok loc) (h' : t'.reach p = .ok loc') : loc = loc' := by
  have hfollow' := (reach_eq_ok_iff.mp h').2
  rw [start, hhere, ← start] at hfollow'
  exact follow_unique hlinks (reach_eq_ok_iff.mp h).2 hfollow'

/-- If a path has a place in two trees with the same links, it is the same place. -/
theorem locate_unique (h : t.locate p = .ok loc) (h' : t'.locate p = .ok loc') : loc = loc' := by
  rcases p.eq_nil_or_concat with ⟨anchor, rfl⟩ | ⟨anchor, names, n, rfl⟩
  · exact Except.ok.inj (h.symm.trans (locate_nil_of_here hhere h'))
  · obtain ⟨-, base, hbase, hn⟩ := locate_concat_eq_ok_iff_enter.mp h
    obtain ⟨-, base', hbase', hn'⟩ := locate_concat_eq_ok_iff_enter.mp h'
    obtain rfl := reach_unique hlinks hhere hbase hbase'
    exact enter_unique hn hn'

/-- If one of two files side by side can be found, the other one can be found too, unless this is
impossible in every tree with the same links. -/
theorem locate_beside (hbeside : p.Beside q) (hp : t.locate p = .ok loc)
    (hq : t'.locate q = .ok loc') : t.locate q = .ok loc' := by
  obtain ⟨anchor, front, m, n, rfl, rfl, hm, hn⟩ := hbeside
  obtain ⟨-, -, base, hbase, hdir, rfl⟩ := (locate_concat_eq_ok_iff hm).mp hp
  obtain ⟨hnul, hlong, base', hbase', -, rfl⟩ := (locate_concat_eq_ok_iff hn).mp hq
  obtain rfl := reach_unique hlinks hhere hbase hbase'
  exact (locate_concat_eq_ok_iff hn).mpr ⟨hnul, hlong, base, hbase, hdir, rfl⟩

end

/-- Different files side by side are at different places. -/
theorem location_ne_of_beside (hbeside : p.Beside q) (hne : p ≠ q) (hp : t.locate p = .ok loc)
    (hq : t.locate q = .ok loc') : loc ≠ loc' := by
  obtain ⟨anchor, front, m, n, rfl, rfl, hm, hn⟩ := hbeside
  obtain ⟨-, -, base, hbase, -, rfl⟩ := (locate_concat_eq_ok_iff hm).mp hp
  obtain ⟨-, -, base', hbase', -, rfl⟩ := (locate_concat_eq_ok_iff hn).mp hq
  obtain rfl := reach_unique (fun _ => rfl) rfl hbase hbase'
  intro heq
  obtain rfl : m = n := List.singleton_inj.mp (List.append_cancel_left heq)
  exact hne rfl

end FileTree

/-! ## The files of an assembly -/

namespace Assembly

open FileTree (hasNul)

/-- What a staged file is for. -/
inductive Role
  | source
  | output
  deriving DecidableEq

/-- The file of a pair that has a role. -/
def Pair.file (pair : Pair) : Role → Path
  | .source => pair.source
  | .output => pair.output

/-- How the names of files with a role end. -/
def Role.extension : Role → String
  | .source => ".wat"
  | .output => ".wasm"

theorem Role.extension_ok (r : Role) : Path.Extension r.extension := by
  cases r <;> decide

theorem Role.eq_of_append_extension {s t : String} {r r' : Role}
    (h : s ++ r.extension = t ++ r'.extension) : r = r' := by
  have hlast := congrArg (fun u => u.toList.getLast?) h
  simp only [String.toList_append] at hlast
  cases r with
  | source =>
    cases r' with
    | source => rfl
    | output => simp [Role.extension] at hlast
  | output =>
    cases r' with
    | source => simp [Role.extension] at hlast
    | output => rfl

/-- The path of a file with a drawn name. -/
def stagedPath (directory : Path) (name : String) (r : Role) : Path :=
  directory.join (.ofString (name ++ r.extension))

theorem file_under (directory : Path) (name : String) (r : Role) :
    (Pair.under directory name).file r = stagedPath directory name r := by
  cases r <;> rfl

theorem file_under_proper {directory : Path} (h : directory.Proper) (name : String) (r : Role) :
    ((Pair.under directory name).file r).Proper := by
  rw [file_under]
  exact h.join (Path.proper_ofString _)

section

variable {directory : Path} {stem x y : String} (hx : '/' ∉ x.toList) (hy : '/' ∉ y.toList)
  {r r' : Role}
include hx hy

/-- Files lie side by side if their names differ only after the last slash. -/
theorem stagedPath_beside :
    (stagedPath directory (stem ++ x) r).Beside (stagedPath directory (stem ++ y) r') := by
  have he := r.extension_ok.append hx
  have he' := r'.extension_ok.append hy
  obtain ⟨anchor, front, last, hpath⟩ := Path.exists_join_ofString directory stem
  refine ⟨anchor, front, last ++ (x ++ r.extension), last ++ (y ++ r'.extension), ?_, ?_,
    he.append_ne _ (by decide), he'.append_ne _ (by decide)⟩
  · rw [stagedPath, String.append_assoc, hpath _ he]
  · rw [stagedPath, String.append_assoc, hpath _ he']

theorem stagedPath_inj
    (h : stagedPath directory (stem ++ x) r = stagedPath directory (stem ++ y) r') :
    x = y ∧ r = r' := by
  obtain ⟨anchor, front, last, hpath⟩ := Path.exists_join_ofString directory stem
  rw [stagedPath, stagedPath, String.append_assoc, String.append_assoc,
    hpath _ (r.extension_ok.append hx), hpath _ (r'.extension_ok.append hy)] at h
  have hnames := List.singleton_inj.mp (List.append_cancel_left (Path.mk.inj h).2)
  have hname := (String.append_right_inj last).mp hnames
  obtain rfl := Role.eq_of_append_extension hname
  exact ⟨(String.append_left_inj r.extension).mp hname, rfl⟩

end

/-- **The two files of an assembly lie side by side.** -/
theorem under_beside (directory : Path) (name : String) :
    (Pair.under directory name).source.Beside (Pair.under directory name).output := by
  have h : (stagedPath directory (name ++ "") .source).Beside
      (stagedPath directory (name ++ "") .output) :=
    stagedPath_beside List.not_mem_nil List.not_mem_nil
  rwa [String.append_empty] at h

/-- The two files of an assembly hold a null character in their paths together, or do not. -/
theorem hasNul_under (directory : Path) (name : String) (r r' : Role) :
    hasNul ((Pair.under directory name).file r).text =
      hasNul ((Pair.under directory name).file r').text := by
  obtain ⟨anchor, front, last, hpath⟩ := Path.exists_join_ofString directory name
  have hfile : ∀ r, hasNul ((Pair.under directory name).file r).text =
      (front.any hasNul || hasNul last) := by
    intro r
    have hextension : hasNul r.extension = false := by
      cases r <;> rfl
    rw [file_under, stagedPath, hpath _ r.extension_ok]
    simp [FileTree.hasNul_text, FileTree.hasNul_append, hextension]
  exact (hfile r).trans (hfile r').symm

end Assembly

/-! ## Numbered files -/

namespace Number

theorem natChars_injective {m n : Nat} (h : natChars m = natChars n) : m = n := by
  calc m = ofDigits ((natChars m).map asciiDigit) := (ofDigits_natChars m).symm
    _ = ofDigits ((natChars n).map asciiDigit) := by rw [h]
    _ = n := ofDigits_natChars n

theorem intChars_injective {m n : Int} (h : intChars m = intChars n) : m = n := by
  have hminus : ∀ {k : Nat} {cs : List Char}, natChars k ≠ '-' :: cs := by
    intro k cs hk
    have hdigit : '-'.isDigit = true :=
      isDigit_of_mem_natChars (n := k) (by rw [hk]; exact List.mem_cons_self)
    exact absurd hdigit (by decide)
  cases m with
  | ofNat m =>
    cases n with
    | ofNat n => exact congrArg _ (natChars_injective h)
    | negSucc n => exact absurd h hminus
  | negSucc m =>
    cases n with
    | ofNat n => exact absurd h.symm hminus
    | negSucc n =>
      have hsucc := natChars_injective (List.cons.inj h).2
      exact congrArg _ (Nat.succ.inj hsucc)

theorem int_injective {m n : Int} (h : int m = int n) : m = n :=
  intChars_injective (by simpa [int] using congrArg String.toList h)

/-- A number is written with digits and a minus sign. -/
theorem not_mem_int {c : Char} (hdigit : c.isDigit = false) (hminus : c ≠ '-') (n : Int) :
    c ∉ (int n).toList := by
  rw [int, String.toList_ofList]
  intro hc
  rcases isDigit_or_eq_of_mem_intChars hc with h | h
  · cases hdigit.symm.trans h
  · exact hminus h

theorem slash_not_mem_int (n : Int) : '/' ∉ (int n).toList :=
  not_mem_int (by decide) (by decide) n

end Number

namespace Assembly

/-- The files of the assembly that draws the number `n`. -/
def numbered (directory : Path) (stem : String) (n : Int) : Pair :=
  Pair.under directory (stem ++ "-" ++ Number.int n)

theorem file_numbered (directory : Path) (stem : String) (n : Int) (r : Role) :
    (numbered directory stem n).file r =
      stagedPath directory (stem ++ ("-" ++ Number.int n)) r := by
  rw [numbered, String.append_assoc, file_under]

theorem slash_not_mem_number (n : Int) : '/' ∉ ("-" ++ Number.int n).toList := by
  rw [String.toList_append]
  exact mt List.mem_append.mp (not_or_intro (by decide) (Number.slash_not_mem_int n))

/-- Numbered files lie side by side. -/
theorem file_numbered_beside (directory : Path) (stem : String) (m n : Int) (r r' : Role) :
    ((numbered directory stem m).file r).Beside ((numbered directory stem n).file r') := by
  rw [file_numbered, file_numbered]
  exact stagedPath_beside (slash_not_mem_number m) (slash_not_mem_number n)

/-- **Numbered files have different paths.** -/
theorem file_numbered_inj {directory : Path} {stem : String} {m n : Int} {r r' : Role}
    (h : (numbered directory stem m).file r = (numbered directory stem n).file r') :
    m = n ∧ r = r' := by
  rw [file_numbered, file_numbered] at h
  obtain ⟨hnumber, rfl⟩ := stagedPath_inj (slash_not_mem_number m) (slash_not_mem_number n) h
  exact ⟨Number.int_injective ((String.append_right_inj "-").mp hnumber), rfl⟩

end Assembly

end StackLang
