import StackLang.Proofs.Footprint

/-!
# Renamed files

Two file trees may hold the same files under different names. A renaming takes names to names; it
keeps different names different, and it keeps all that the file system can tell about a single name:
whether it leads up, whether it is too long, whether it holds a null character. Along a renaming
every operation on files does the same on both trees. It succeeds on both or fails on both, and an
error is about the path that it was asked for on either side.

A tree is compared with its counterpart by looking at both, location by location. So the relation
says nothing about the order in which the trees list their files, and files of the second tree whose
names are taken by nothing are left open.

## Main definitions

* `Renaming`, `Renaming.path` — renamings of names and of paths
* `Renaming.exchange`, `Renaming.comp` — two names exchanged, and several in turn
* `FileTree.Mirrors` — the second tree is the first one with its files renamed
* `FileTree.Mirrored` — operations that do the same on both trees

## Main results

* `FileTree.mirrors_self` — a tree whose files keep their names
* `FileTree.Mirrors.locate` — where a renamed path leads
* `FileTree.Mirrors.read`, `FileTree.Mirrors.write`, `FileTree.Mirrors.remove`,
  `FileTree.Mirrors.makeDirectory` — the operations on one path
* `FileTree.Mirrors.makeDirectories` — a directory that keeps its name, with all its parents
-/

namespace StackLang

/-- A renaming of files. -/
structure Renaming where
  map : String → String
  injective : ∀ {m n}, map m = map n → m = n
  up : map ".." = ".."
  long : ∀ name, FileTree.isLongName (map name) = FileTree.isLongName name
  nul : ∀ name, FileTree.hasNul (map name) = FileTree.hasNul name

namespace Renaming

variable (ρ : Renaming)

/-- The path with its names renamed. -/
def path (p : Path) : Path := { p with names := p.names.map ρ.map }

/-- What is at a location when all files are renamed: a link stands for a renamed path. -/
def node : FileNode → FileNode
  | .link target => .link (ρ.path target)
  | other => other

/-- The path keeps its names. -/
def Fixes (p : Path) : Prop := ∀ name ∈ p.names, ρ.map name = name

theorem map_eq_up_iff (name : String) : ρ.map name = ".." ↔ name = ".." :=
  ⟨fun h => ρ.injective (h.trans ρ.up.symm), fun h => h ▸ ρ.up⟩

theorem map_location_inj {loc other : Location} (h : loc.map ρ.map = other.map ρ.map) :
    loc = other := by
  induction loc generalizing other with
  | nil => exact (List.map_eq_nil_iff.mp h.symm).symm
  | cons name names ih =>
    cases other with
    | nil => cases h
    | cons name' names' =>
      obtain ⟨hname, hnames⟩ := List.cons.inj h
      rw [ρ.injective hname, ih hnames]

theorem hasNul_path (p : Path) :
    FileTree.hasNul (ρ.path p).text = FileTree.hasNul p.text := by
  rw [FileTree.hasNul_text, FileTree.hasNul_text, path, List.any_map]
  exact congrArg p.names.any (funext ρ.nul)

theorem startFrom_map (loc : Location) (anchor : Anchor) :
    FileTree.startFrom (loc.map ρ.map) anchor = (FileTree.startFrom loc anchor).map ρ.map := by
  cases anchor <;> rfl

theorem node_eq_directory_iff (node : FileNode) :
    ρ.node node = .directory ↔ node = .directory := by
  cases node <;> simp [Renaming.node]

theorem Fixes.path_eq {p : Path} (h : ρ.Fixes p) : ρ.path p = p := by
  rw [path, List.map_congr_left h, List.map_id']

/-- The renaming that exchanges two names. -/
def exchange (m n : String) (hup : m ≠ ".." ∧ n ≠ "..")
    (hlong : FileTree.isLongName m = FileTree.isLongName n)
    (hnul : FileTree.hasNul m = FileTree.hasNul n) : Renaming where
  map name := if name = m then n else if name = n then m else name
  injective {x y} h := by grind
  up := by rw [if_neg hup.1.symm, if_neg hup.2.symm]
  long name := by grind
  nul name := by grind

/-- One renaming after another. -/
def comp (ρ σ : Renaming) : Renaming where
  map name := ρ.map (σ.map name)
  injective h := σ.injective (ρ.injective h)
  up := by rw [σ.up, ρ.up]
  long name := by rw [ρ.long, σ.long]
  nul name := by rw [ρ.nul, σ.nul]

end Renaming

/-- The error about a path: a null character in it, or what the operating system has against it. -/
def FileError.about (p : Path) : Option Errno → FileError
  | none => .nul
  | some errno => .os ⟨errno, p.text⟩

namespace FileTree

variable {ρ : Renaming} {t t' : FileTree} {p p' : Path}

/-- The second tree is the first one with its files renamed. -/
structure Mirrors (ρ : Renaming) (t t' : FileTree) : Prop where
  here : t'.here = t.here.map ρ.map
  bodies : t'.bodies = t.bodies
  sealed : ∀ loc, t'.isSealed (loc.map ρ.map) = t.isSealed loc
  get : ∀ loc, t'.get? (loc.map ρ.map) = (t.get? loc).map ρ.node

/-- Two operations that do the same: they give results that are related, or the same error, each
about its own path. -/
inductive Mirrored {α : Type} (R : α → α → Prop) (p p' : Path) :
    Except FileError α → Except FileError α → Prop
  | ok {a a' : α} (h : R a a') : Mirrored R p p' (.ok a) (.ok a')
  | error (why : Option Errno) :
    Mirrored R p p' (.error (.about p why)) (.error (.about p' why))

/-- A tree whose files keep their names is its own counterpart. -/
theorem mirrors_self (hhere : ∀ name ∈ t.here, ρ.map name = name)
    (hentries : ∀ e ∈ t.entries, (∀ name ∈ e.1, ρ.map name = name) ∧ ρ.node e.2 = e.2)
    (hsealed : ∀ loc ∈ t.sealed, ∀ name ∈ loc, ρ.map name = name) : t.Mirrors ρ t := by
  have hkept : ∀ {loc : Location}, (∀ name ∈ loc, ρ.map name = name) → loc.map ρ.map = loc := by
    intro loc hfix
    rw [List.map_congr_left hfix, List.map_id']
  have heq : ∀ {loc other : Location}, (∀ name ∈ other, ρ.map name = name) →
      (loc.map ρ.map == other) = (loc == other) := by
    intro loc other hfix
    rw [Bool.eq_iff_iff, beq_iff_eq, beq_iff_eq]
    exact ⟨fun h => ρ.map_location_inj (h.trans (hkept hfix).symm), fun h => by rw [h, hkept hfix]⟩
  have hlookup : ∀ (entries : List (Location × FileNode)) (loc : Location),
      (∀ e ∈ entries, (∀ name ∈ e.1, ρ.map name = name) ∧ ρ.node e.2 = e.2) →
      entries.lookup (loc.map ρ.map) = (entries.lookup loc).map ρ.node := by
    intro entries loc hfix
    induction entries with
    | nil => rfl
    | cons e es ih =>
      obtain ⟨⟨hfirst, hnode⟩, hrest⟩ := List.forall_mem_cons.mp hfix
      rw [List.lookup_cons, List.lookup_cons, heq hfirst, ih hrest]
      cases loc == e.1 with
      | true => exact congrArg some hnode.symm
      | false => rfl
  refine ⟨(hkept hhere).symm, rfl, fun loc => ?_, fun loc => ?_⟩
  · have hcontains : ∀ sealed : List Location,
        (∀ other ∈ sealed, ∀ name ∈ other, ρ.map name = name) →
        sealed.contains (loc.map ρ.map) = sealed.contains loc := by
      intro sealed hfix
      induction sealed with
      | nil => rfl
      | cons other rest ih =>
        obtain ⟨hfirst, hrest⟩ := List.forall_mem_cons.mp hfix
        rw [List.contains_cons, List.contains_cons, heq hfirst, ih hrest]
    exact hcontains t.sealed hsealed
  · rw [get?, get?, hlookup t.entries loc hentries]
    simp only [List.map_eq_nil_iff]
    split <;> rfl

theorem Mirrored.bind {α β : Type} {R : α → α → Prop} {S : β → β → Prop}
    {x x' : Except FileError α} {g g' : α → Except FileError β} (h : Mirrored R p p' x x')
    (hg : ∀ {a a'}, R a a' → Mirrored S p p' (g a) (g' a')) :
    Mirrored S p p' (x >>= g) (x' >>= g') := by
  cases h with
  | ok h => exact hg h
  | error why => exact .error why

theorem Mirrored.refuse {α : Type} {R : α → α → Prop} (errno : Errno) :
    Mirrored R p p' (refuse p errno) (refuse p' errno) := .error (some errno)

namespace Mirrors

/-! ## The table -/

theorem set (h : t.Mirrors ρ t') {loc : Location} (hne : loc ≠ []) (node : FileNode) :
    (t.set loc node).Mirrors ρ (t'.set (loc.map ρ.map) (ρ.node node)) := by
  refine ⟨h.here, h.bodies, h.sealed, fun other => ?_⟩
  rw [get?_set t' (mt List.map_eq_nil_iff.mp hne), get?_set t hne, h.get]
  by_cases hother : other = loc
  · rw [if_pos hother, if_pos (congrArg _ hother)]
    rfl
  · rw [if_neg hother, if_neg (mt ρ.map_location_inj hother)]

theorem erase (h : t.Mirrors ρ t') {loc : Location} (hne : loc ≠ []) :
    (t.erase loc).Mirrors ρ (t'.erase (loc.map ρ.map)) := by
  refine ⟨h.here, h.bodies, h.sealed, fun other => ?_⟩
  rw [get?_erase t' (mt List.map_eq_nil_iff.mp hne), get?_erase t hne, h.get]
  by_cases hother : other = loc
  · rw [if_pos hother, if_pos (congrArg _ hother)]
    rfl
  · rw [if_neg hother, if_neg (mt ρ.map_location_inj hother)]

theorem setBody (h : t.Mirrors ρ t') (number : Nat) (bytes : Bytes) :
    (t.setBody number bytes).Mirrors ρ (t'.setBody number bytes) := by
  refine ⟨h.here, ?_, h.sealed, h.get⟩
  rw [FileTree.setBody, FileTree.setBody, h.bodies]

theorem link? (h : t.Mirrors ρ t') (loc : Location) :
    t'.link? (loc.map ρ.map) = (t.link? loc).map ρ.path := by
  rw [FileTree.link?, FileTree.link?, h.get]
  cases t.get? loc with
  | none => rfl
  | some node => cases node <;> rfl

theorem isSealed_dropLast (h : t.Mirrors ρ t') (loc : Location) :
    t'.isSealed (loc.map ρ.map).dropLast = t.isSealed loc.dropLast := by
  rw [← List.map_dropLast, h.sealed]

/-! ## Paths -/

theorem enter (h : t.Mirrors ρ t') (loc : Location) (name : String) :
    t'.enter (loc.map ρ.map) (ρ.map name) = (t.enter loc name).map (List.map ρ.map) := by
  rw [FileTree.enter, FileTree.enter, h.get]
  cases t.get? loc with
  | none => rfl
  | some node =>
    cases node with
    | file bytes | link target | shared number => rfl
    | directory =>
      simp only [Option.map_some, Renaming.node, ρ.long]
      split
      · rfl
      · by_cases hup : name = ".."
        · rw [if_pos hup, if_pos ((ρ.map_eq_up_iff name).mpr hup), ← List.map_dropLast]
          rfl
        · rw [if_neg hup, if_neg (mt (ρ.map_eq_up_iff name).mp hup)]
          simp [Except.map]

theorem follow (h : t.Mirrors ρ t') (links : Nat) (loc : Location) (names : List String) :
    t'.follow links (loc.map ρ.map) (names.map ρ.map)
      = (t.follow links loc names).map (List.map ρ.map) := by
  refine follow_induction t t' (fun turn turn' => ∀ names loc,
    turn' (loc.map ρ.map) (names.map ρ.map) = (turn loc names).map (List.map ρ.map))
    (fun _ _ => rfl) ?_ links names loc
  intro turn turn' hturn names
  induction names with
  | nil => exact fun _ => rfl
  | cons name names ih =>
    intro loc
    rw [List.map_cons, walk, walk, h.enter]
    cases t.enter loc name with
    | error errno => rfl
    | ok next =>
      simp only [Except.map, h.link?]
      cases t.link? next with
      | none => exact ih next
      | some target =>
        simp only [Option.map_some, Renaming.path, ρ.startFrom_map, ← List.map_append]
        exact hturn _ _

theorem start (h : t.Mirrors ρ t') (anchor : Anchor) :
    t'.start anchor = (t.start anchor).map ρ.map := by
  rw [FileTree.start, FileTree.start, h.here, ρ.startFrom_map]

/-- The same is asked about a renamed path. -/
theorem mirrored_ask {α : Type} {R : α → α → Prop} (p : Path) {answer answer' : Except Errno α}
    {f : α → α} (hanswer : answer' = answer.map f) (hf : ∀ a, R a (f a)) :
    Mirrored R p (ρ.path p) (ask p answer) (ask (ρ.path p) answer') := by
  subst hanswer
  simp only [ask, ρ.hasNul_path]
  cases hasNul p.text with
  | true => exact .error none
  | false =>
    cases answer with
    | ok a => exact .ok (hf a)
    | error errno => exact .error (some errno)

/-- **Where a renamed path leads.** -/
theorem reach (h : t.Mirrors ρ t') (p : Path) :
    Mirrored (fun loc loc' => loc' = loc.map ρ.map) p (ρ.path p) (t.reach p)
      (t'.reach (ρ.path p)) := by
  refine mirrored_ask p ?_ fun _ => rfl
  rw [Renaming.path, h.start]
  exact h.follow _ _ _

/-- **The place of a renamed path.** -/
theorem locate (h : t.Mirrors ρ t') (p : Path) :
    Mirrored (fun loc loc' => loc' = loc.map ρ.map) p (ρ.path p) (t.locate p)
      (t'.locate (ρ.path p)) := by
  refine mirrored_ask p ?_ fun _ => rfl
  simp only [Renaming.path, h.start, List.getLast?_map, ← List.map_dropLast, h.follow]
  cases p.names.getLast? with
  | none => rfl
  | some name =>
    simp only [Option.map_some]
    cases t.follow maxLinks (t.start p.anchor) p.names.dropLast with
    | error errno => rfl
    | ok loc => exact h.enter loc name

/-! ## Operations -/

theorem read (h : t.Mirrors ρ t') (p : Path) :
    Mirrored Eq p (ρ.path p) (t.read p) (t'.read (ρ.path p)) := by
  refine (h.reach p).bind ?_
  rintro loc _ rfl
  rw [h.get]
  cases t.get? loc with
  | none => exact .refuse _
  | some node =>
    cases node with
    | file bytes => exact .ok rfl
    | shared number => exact .ok (by rw [body, body, h.bodies])
    | directory | link target => exact .refuse _

theorem write (h : t.Mirrors ρ t') (p : Path) (bytes : Bytes) :
    Mirrored (Mirrors ρ) p (ρ.path p) (t.write p bytes) (t'.write (ρ.path p) bytes) := by
  refine (h.reach p).bind ?_
  rintro loc _ rfl
  rw [h.get]
  cases hnode : t.get? loc with
  | none =>
    simp only [Option.map_none, h.isSealed_dropLast]
    split
    · exact .refuse _
    · exact .ok (h.set (ne_nil_of_get?_eq_none hnode) (.file bytes))
  | some node =>
    cases node with
    | file old =>
      simp only [Option.map_some, Renaming.node, h.sealed]
      split
      · exact .refuse _
      · exact .ok (h.set (free_of_file hnode).ne_nil (.file bytes))
    | shared number =>
      simp only [Option.map_some, Renaming.node, h.sealed]
      split
      · exact .refuse _
      · exact .ok (h.setBody number bytes)
    | directory | link target => exact .refuse _

theorem remove (h : t.Mirrors ρ t') (p : Path) :
    Mirrored (Mirrors ρ) p (ρ.path p) (t.remove p) (t'.remove (ρ.path p)) := by
  refine (h.locate p).bind ?_
  rintro loc _ rfl
  rw [h.get]
  cases hnode : t.get? loc with
  | none => exact .refuse _
  | some node =>
    simp only [Option.map_some, h.isSealed_dropLast, ρ.node_eq_directory_iff]
    split
    · exact .refuse _
    · split
      · exact .refuse _
      · next hdir =>
        refine .ok (h.erase (ne_nil_of_get?_ne (t := t) ?_))
        rw [hnode]
        exact fun heq => hdir (Option.some.inj heq)

theorem makeDirectory (h : t.Mirrors ρ t') (p : Path) :
    Mirrored (Mirrors ρ) p (ρ.path p) (t.makeDirectory p) (t'.makeDirectory (ρ.path p)) := by
  refine (h.locate p).bind ?_
  rintro loc _ rfl
  rw [h.get]
  cases hnode : t.get? loc with
  | none =>
    simp only [Option.map_none, h.isSealed_dropLast]
    split
    · exact .refuse _
    · exact .ok (h.set (ne_nil_of_get?_eq_none hnode) .directory)
  | some node => exact .refuse _

/-! ## Directories with their parents -/

theorem isDirectory (h : t.Mirrors ρ t') (p : Path) :
    t'.isDirectory (ρ.path p) = t.isDirectory p := by
  have hreach := h.reach p
  rw [FileTree.isDirectory, FileTree.isDirectory]
  generalize t.reach p = x at hreach ⊢
  generalize t'.reach (ρ.path p) = x' at hreach ⊢
  cases hreach with
  | @ok loc _ hloc =>
    subst hloc
    dsimp only
    rw [h.get, Bool.eq_iff_iff, decide_eq_true_iff, decide_eq_true_iff]
    cases t.get? loc with
    | none => simp
    | some node => simp [ρ.node_eq_directory_iff]
  | error why => rfl

theorem settle (h : t.Mirrors ρ t') (hfix : ρ.Fixes p) (e : FileError) :
    t'.settle p e = t.settle p e := by
  have hdirectory := h.isDirectory p
  rw [hfix.path_eq] at hdirectory
  rw [FileTree.settle, FileTree.settle, hdirectory]

/-- Making a directory that keeps its name, with all its parents, does the same. -/
theorem makeDirectoriesFrom (h : t.Mirrors ρ t') (anchor : Anchor) (names : List String)
    (hfix : ∀ name ∈ names, ρ.map name = name) :
    (FileTree.makeDirectoriesFrom anchor names t).1.Mirrors ρ
        (FileTree.makeDirectoriesFrom anchor names t').1 ∧
      (FileTree.makeDirectoriesFrom anchor names t).2
        = (FileTree.makeDirectoriesFrom anchor names t').2 := by
  induction names generalizing t t' with
  | nil => exact ⟨h, rfl⟩
  | cons name above ih =>
    have hp : ρ.Fixes ⟨anchor, (name :: above).reverse⟩ :=
      fun n hn => hfix n (List.mem_reverse.mp hn)
    have hmake : ∀ {s s' : FileTree}, s.Mirrors ρ s' →
        Mirrored (Mirrors ρ) ⟨anchor, (name :: above).reverse⟩ ⟨anchor, (name :: above).reverse⟩
          (s.makeDirectory ⟨anchor, (name :: above).reverse⟩)
          (s'.makeDirectory ⟨anchor, (name :: above).reverse⟩) := by
      intro s s' hs
      have hmade := hs.makeDirectory ⟨anchor, (name :: above).reverse⟩
      rw [hp.path_eq] at hmade
      exact hmade
    have habove := ih h fun n hn => hfix n (List.mem_cons_of_mem name hn)
    have hfirst := hmake h
    rw [FileTree.makeDirectoriesFrom, FileTree.makeDirectoriesFrom]
    generalize t.makeDirectory ⟨anchor, (name :: above).reverse⟩ = x at hfirst ⊢
    generalize t'.makeDirectory ⟨anchor, (name :: above).reverse⟩ = x' at hfirst ⊢
    cases hfirst with
    | ok hmade => exact ⟨hmade, rfl⟩
    | error why =>
      cases why with
      | none => exact ⟨h, (h.settle hp _).symm⟩
      | some errno =>
        cases errno with
        | notFound =>
          simp only [FileError.about]
          split
          · exact ⟨h, rfl⟩
          -- a place on the way is missing: the directories above come first
          · generalize FileTree.makeDirectoriesFrom anchor above t = y at habove ⊢
            generalize FileTree.makeDirectoriesFrom anchor above t' = y' at habove ⊢
            obtain ⟨s, result⟩ := y
            obtain ⟨s', result'⟩ := y'
            obtain ⟨hs, rfl⟩ : s.Mirrors ρ s' ∧ result = result' := habove
            cases result with
            | error e => exact ⟨hs, rfl⟩
            | ok done =>
              have hsecond := hmake hs
              dsimp only
              generalize s.makeDirectory ⟨anchor, (name :: above).reverse⟩ = z at hsecond ⊢
              generalize s'.makeDirectory ⟨anchor, (name :: above).reverse⟩ = z' at hsecond ⊢
              cases hsecond with
              | ok hmade => exact ⟨hmade, rfl⟩
              | error why => exact ⟨hs, (hs.settle hp _).symm⟩
        | permission | fileExists | notDirectory | isDirectory | nameTooLong | tooManyLinks =>
          exact ⟨h, (h.settle hp _).symm⟩

/-- **A directory that keeps its name is made alike.** -/
theorem makeDirectories (h : t.Mirrors ρ t') (hfix : ρ.Fixes p) :
    (t.makeDirectories p).1.Mirrors ρ (t'.makeDirectories p).1 ∧
      (t.makeDirectories p).2 = (t'.makeDirectories p).2 := by
  rw [FileTree.makeDirectories, FileTree.makeDirectories]
  cases hasNul p.text with
  | true => exact ⟨h, rfl⟩
  | false =>
    exact h.makeDirectoriesFrom p.anchor p.names.reverse
      fun name hname => hfix name (List.mem_reverse.mp hname)

end Mirrors

end FileTree

end StackLang
