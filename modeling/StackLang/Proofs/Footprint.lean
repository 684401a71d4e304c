import StackLang.Proofs.Paths

/-!
# What changes in a file tree

Every operation on files changes the tree at the location that its path leads to, and nowhere else.
Making a directory with its parents changes more than one location, but it only ever puts
directories where nothing was, on the way to the one that was asked for.

## Main definitions

* `FileTree.AgreeOff` — trees that differ at some locations only
* `FileTree.NoFile`, `FileTree.Refused` — a path with no file, and one where nothing can be removed
* `FileTree.Thinned` — a tree from which files and links were taken away
* `Path.Encloses` — a path and its parents
* `FileTree.Grown` — a tree with further directories on the way of a path

## Main results

* `FileTree.Thinned.locate` — a path has no other place than before
* `FileTree.remove_spec` — no file is left by a removal, unless it was refused
* `FileTree.makeDirectories_grown` — what making a directory does to a tree
* `FileTree.makeDirectories_again` — a directory that was made once is found from then on
-/

namespace StackLang

/-- The path is `p` itself or one of its parents. -/
structure Path.Encloses (q p : Path) : Prop where
  anchor : q.anchor = p.anchor
  names : q.names <+: p.names

theorem Path.Encloses.refl (p : Path) : p.Encloses p := ⟨rfl, List.prefix_rfl⟩

namespace FileTree

/-! ## Trees that differ at some locations only -/

/-- The trees agree at all locations outside of `S`, and in all that is no location: the working
directory, what is sealed, and what the files with several names hold. -/
structure AgreeOff (S : Location → Prop) (t t' : FileTree) : Prop where
  here : t'.here = t.here
  sealed : t'.sealed = t.sealed
  bodies : t'.bodies = t.bodies
  get? : ∀ loc, ¬ S loc → t'.get? loc = t.get? loc

namespace AgreeOff

variable {S S' : Location → Prop} {t t' t'' : FileTree}

theorem refl (S : Location → Prop) (t : FileTree) : AgreeOff S t t :=
  ⟨rfl, rfl, rfl, fun _ _ => rfl⟩

theorem trans (h : AgreeOff S t t') (h' : AgreeOff S t' t'') : AgreeOff S t t'' :=
  ⟨h'.here.trans h.here, h'.sealed.trans h.sealed, h'.bodies.trans h.bodies,
    fun loc hloc => (h'.get? loc hloc).trans (h.get? loc hloc)⟩

theorem mono (h : AgreeOff S t t') (hS : ∀ loc, S loc → S' loc) : AgreeOff S' t t' :=
  ⟨h.here, h.sealed, h.bodies, fun loc hloc => h.get? loc (mt (hS loc) hloc)⟩

theorem set {loc : Location} (hne : loc ≠ []) (t : FileTree) (node : FileNode) :
    AgreeOff (· = loc) t (t.set loc node) :=
  ⟨rfl, rfl, rfl, fun other hother => by rw [get?_set t hne, if_neg hother]⟩

theorem erase {loc : Location} (hne : loc ≠ []) (t : FileTree) :
    AgreeOff (· = loc) t (t.erase loc) :=
  ⟨rfl, rfl, rfl, fun other hother => by rw [get?_erase t hne, if_neg hother]⟩

end AgreeOff

variable {t t' : FileTree} {p q : Path}

/-- What is no directory is not the root. -/
theorem ne_nil_of_get?_ne {loc : Location} (h : t.get? loc ≠ some .directory) : loc ≠ [] := by
  rintro rfl
  exact h rfl

theorem ne_nil_of_get?_eq_none {loc : Location} (h : t.get? loc = none) : loc ≠ [] := by
  have hdir : t.get? loc ≠ some .directory := by simp [h]
  exact ne_nil_of_get?_ne hdir

/-! ## Single files and directories -/

/-- A write changes the plain file that the path leads to, or makes one there; or it changes what a
file with several names holds. -/
theorem exists_of_write {bytes : Bytes} (h : t.write p bytes = .ok t') :
    ∃ loc, t.reach p = .ok loc ∧
      (t.Free loc ∧ t' = t.set loc (.file bytes) ∨
        ∃ number, t.get? loc = some (.shared number) ∧ t' = t.setBody number bytes) := by
  cases hreach : t.reach p with
  | error e =>
    simp only [write, hreach, bind, Except.bind] at h
    cases h
  | ok loc =>
    refine ⟨loc, rfl, ?_⟩
    simp only [write, hreach, bind, Except.bind] at h
    cases hnode : t.get? loc with
    | none =>
      simp only [hnode] at h
      split at h
      · cases h
      · exact .inl ⟨free_of_none hnode, (Except.ok.inj h).symm⟩
    | some node =>
      cases node with
      | directory | link target =>
        simp only [hnode] at h
        cases h
      | file old =>
        simp only [hnode] at h
        split at h
        · cases h
        · exact .inl ⟨free_of_file hnode, (Except.ok.inj h).symm⟩
      | shared number =>
        simp only [hnode] at h
        split at h
        · cases h
        · exact .inr ⟨number, rfl, (Except.ok.inj h).symm⟩

theorem exists_of_make {node : FileNode} (h : t.make p node = .ok t') :
    ∃ loc, t.locate p = .ok loc ∧ t.get? loc = none ∧ t' = t.set loc node := by
  cases hloc : t.locate p with
  | error e =>
    simp only [make, hloc, bind, Except.bind] at h
    cases h
  | ok loc =>
    simp only [make, hloc, bind, Except.bind] at h
    split at h
    · cases h
    · next hnone =>
      split at h
      · cases h
      · exact ⟨loc, rfl, hnone, (Except.ok.inj h).symm⟩

/-- The path leads nowhere, to nothing or to a directory: there is no file, and no link. -/
def NoFile (t : FileTree) (p : Path) : Prop :=
  ∀ loc node, t.locate p = .ok loc → t.get? loc = some node → node = .directory

/-- Nothing can be removed at the path: its directory is sealed. -/
def Refused (t : FileTree) (p : Path) : Prop :=
  ∃ loc, t.locate p = .ok loc ∧ t.isSealed loc.dropLast = true

theorem noFile_of_hasNul (h : hasNul p.text = true) : t.NoFile p := by
  intro loc node hloc
  rw [hasNul_of_locate hloc] at h
  exact Bool.noConfusion h

/-- A removal takes a file or a link away, or there was none, or it is refused. -/
theorem remove_cases (t : FileTree) (p : Path) :
    (∃ loc node, t.locate p = .ok loc ∧ t.get? loc = some node ∧ node ≠ .directory ∧
        t.remove p = .ok (t.erase loc)) ∨
      (t.NoFile p ∨ t.Refused p) ∧
        ∃ e, t.remove p = .error e ∧ (e = .nul → hasNul p.text = true) := by
  cases hloc : t.locate p with
  | error e =>
    refine .inr ⟨.inl fun loc node h => ?_, e, ?_, fun he => ?_⟩
    · rw [hloc] at h
      cases h
    · rw [remove, hloc]
      rfl
    · subst he
      exact hasNul_of_ask hloc
  | ok loc =>
    have hnone : (∀ node, t.get? loc = some node → node = .directory) → t.NoFile p := by
      intro hnode other node hother
      rw [hloc] at hother
      exact Except.ok.inj hother ▸ hnode node
    cases hnode : t.get? loc with
    | none =>
      refine .inr ⟨.inl (hnone (by simp [hnode])), .os ⟨.notFound, p.text⟩, ?_, by simp⟩
      exact remove_of_get?_eq_none hloc hnode
    | some node =>
      by_cases hsealed : t.isSealed loc.dropLast = true
      · refine .inr ⟨.inr ⟨loc, hloc, hsealed⟩, .os ⟨.permission, p.text⟩, ?_, by simp⟩
        simp [remove, hloc, bind, Except.bind, hnode, hsealed, refuse]
      · by_cases hdir : node = .directory
        · subst hdir
          refine .inr ⟨.inl (hnone (by simp [hnode])), .os ⟨.isDirectory, p.text⟩, ?_, by simp⟩
          simp [remove, hloc, bind, Except.bind, hnode, hsealed, refuse]
        · refine .inl ⟨loc, node, rfl, hnode, hdir, ?_⟩
          simp [remove, hloc, bind, Except.bind, hnode, hsealed, hdir, pure, Except.pure]

/-! ## Trees with less in them -/

/-- Some files and links have been taken away, and no directory. -/
structure Thinned (t t' : FileTree) : Prop where
  here : t'.here = t.here
  get? : ∀ loc, t'.get? loc = t.get? loc ∨ t'.get? loc = none ∧ t.get? loc ≠ some .directory

namespace Thinned

theorem refl (t : FileTree) : Thinned t t := ⟨rfl, fun _ => .inl rfl⟩

theorem erase {loc : Location} (hne : loc ≠ []) (h : t.get? loc ≠ some .directory) :
    Thinned t (t.erase loc) := by
  refine ⟨rfl, fun other => ?_⟩
  rw [get?_erase t hne]
  by_cases hother : other = loc
  · rw [if_pos hother]
    exact .inr ⟨rfl, hother ▸ h⟩
  · rw [if_neg hother]
    exact .inl rfl

theorem get?_of_some (h : Thinned t t') {loc : Location} {node : FileNode}
    (hnode : t'.get? loc = some node) : t.get? loc = some node := by
  rcases h.get? loc with hsame | ⟨hnone, -⟩
  · exact hsame ▸ hnode
  · cases hnone.symm.trans hnode

theorem enter (h : Thinned t t') {base loc : Location} {name : String}
    (henter : t'.enter base name = .ok loc) : t.enter base name = .ok loc := by
  obtain ⟨hdir, hname⟩ := enter_eq_ok_iff.mp henter
  exact enter_eq_ok_iff.mpr ⟨h.get?_of_some hdir, hname⟩

/-- The names that lead to a directory have led there before. -/
theorem follow (h : Thinned t t') {links : Nat} {start loc : Location} {names : List String}
    (hdir : t'.get? loc = some .directory) (hl : t'.follow links start names = .ok loc) :
    t.follow links start names = .ok loc := by
  refine follow_induction t' t (fun turn' turn => ∀ {names start},
    turn' start names = .ok loc → turn start names = .ok loc) (fun h => h) ?_ links hl
  intro turn' turn hturn names
  induction names with
  | nil => exact fun hl => hl
  | cons n names ih =>
    intro start hl
    obtain ⟨next, hnext, ⟨target, htarget, hl⟩ | ⟨hnone, hl⟩⟩ := walk_cons_eq_ok_iff.mp hl
    · have hlink := h.get?_of_some (link?_eq_some_iff.mp htarget)
      exact walk_cons_eq_ok_iff.mpr ⟨next, h.enter hnext,
        .inl ⟨target, link?_eq_some_iff.mpr hlink, hturn hl⟩⟩
    · -- what was taken away is not on the way: the walk would have ended there
      have hsome : ∃ node, t'.get? next = some node := by
        cases names with
        | nil => exact ⟨.directory, Except.ok.inj hl ▸ hdir⟩
        | cons m names =>
          obtain ⟨last, henter, -⟩ := walk_cons_eq_ok_iff.mp hl
          exact ⟨.directory, (enter_eq_ok_iff.mp henter).1⟩
      obtain ⟨node, hnode⟩ := hsome
      have hlink : t.link? next = none := by
        rw [← hnone, link?, link?, hnode, h.get?_of_some hnode]
      exact walk_cons_eq_ok_iff.mpr ⟨next, h.enter hnext, .inr ⟨hlink, ih hl⟩⟩

/-- **A path has no other place** than before. -/
theorem locate (h : Thinned t t') {loc : Location} (hl : t'.locate p = .ok loc) :
    t.locate p = .ok loc := by
  rcases p.eq_nil_or_concat with ⟨anchor, rfl⟩ | ⟨anchor, names, n, rfl⟩
  · exact locate_nil_of_here h.here hl
  · obtain ⟨hnul, base, hbase, hn⟩ := locate_concat_eq_ok_iff_enter.mp hl
    obtain ⟨hnames, hfollow⟩ := reach_eq_ok_iff.mp hbase
    rw [start, h.here, ← start] at hfollow
    exact locate_concat_eq_ok_iff_enter.mpr ⟨hnul, base,
      reach_eq_ok_iff.mpr ⟨hnames, h.follow (enter_eq_ok_iff.mp hn).1 hfollow⟩, h.enter hn⟩

theorem noFile (h : Thinned t t') (hno : t.NoFile p) : t'.NoFile p :=
  fun loc node hloc hnode => hno loc node (h.locate hloc) (h.get?_of_some hnode)

end Thinned

/-- **What a removal leaves.** If it is possible, no file is left at its path, and nothing else has
changed. If it is not, there was no file, or the removal was refused. -/
theorem remove_spec (t : FileTree) (p : Path) :
    (∃ t', t.remove p = .ok t' ∧ t'.NoFile p ∧ Thinned t t' ∧
        AgreeOff (fun loc => t.locate p = .ok loc) t t') ∨
      (t.NoFile p ∨ t.Refused p) ∧
        ∃ e, t.remove p = .error e ∧ (e = .nul → hasNul p.text = true) := by
  rcases remove_cases t p with ⟨loc, node, hloc, hnode, hdir, hremove⟩ | h
  · have hget : t.get? loc ≠ some .directory := by
      rw [hnode]
      exact fun heq => hdir (Option.some.inj heq)
    have hne := ne_nil_of_get?_ne hget
    have hthinned : Thinned t (t.erase loc) := .erase hne hget
    refine .inl ⟨_, hremove, ?_, hthinned, (AgreeOff.erase hne t).mono ?_⟩
    · intro other node hother hnode
      have hlocated := hthinned.locate hother
      rw [hloc] at hlocated
      rw [← Except.ok.inj hlocated, get?_erase t hne, if_pos rfl] at hnode
      cases hnode
    · rintro _ rfl
      exact hloc
  · exact .inr h

/-! ## Directories with their parents -/

/-- The tree has further directories, all of them on the way of `p`, and is otherwise the same. -/
structure Grown (p : Path) (t t' : FileTree) : Prop where
  here : t'.here = t.here
  sealed : t'.sealed = t.sealed
  bodies : t'.bodies = t.bodies
  get? : ∀ loc, t'.get? loc = t.get? loc ∨
    t.get? loc = none ∧ t'.get? loc = some .directory ∧
      ∃ q : Path, q.Encloses p ∧ t'.locate q = .ok loc

namespace Grown

variable {t'' : FileTree}

theorem refl (p : Path) (t : FileTree) : Grown p t t := ⟨rfl, rfl, rfl, fun _ => .inl rfl⟩

theorem directory (h : Grown p t t') {loc : Location} (hdir : t.get? loc = some .directory) :
    t'.get? loc = some .directory := by
  rcases h.get? loc with hsame | ⟨hnone, -, -⟩
  · rw [hsame, hdir]
  · rw [hdir] at hnone
    cases hnone

theorem link? (h : Grown p t t') (loc : Location) : t'.link? loc = t.link? loc := by
  rcases h.get? loc with hsame | ⟨hnone, hdir, -⟩
  · rw [FileTree.link?, FileTree.link?, hsame]
  · rw [FileTree.link?, FileTree.link?, hnone, hdir]

theorem locate (h : Grown p t t') {loc : Location} (hloc : t.locate q = .ok loc) :
    t'.locate q = .ok loc :=
  locate_of_directories (fun _ => h.directory) h.link? h.here.symm hloc

theorem reach (h : Grown p t t') {loc : Location} (hloc : t.reach q = .ok loc) :
    t'.reach q = .ok loc :=
  reach_of_directories (fun _ => h.directory) h.link? h.here.symm hloc

theorem trans (h : Grown q t t') (h' : Grown p t' t'') (hqp : q.Encloses p) : Grown p t t'' := by
  refine ⟨h'.here.trans h.here, h'.sealed.trans h.sealed, h'.bodies.trans h.bodies,
    fun loc => ?_⟩
  rcases h'.get? loc with hsame' | ⟨hnone', hdir', hway'⟩
  · rw [hsame']
    rcases h.get? loc with hsame | ⟨hnone, hdir, r, hr, hloc⟩
    · exact .inl hsame
    · refine .inr ⟨hnone, hdir, r, ?_, h'.locate hloc⟩
      exact ⟨hr.anchor.trans hqp.anchor, hr.names.trans hqp.names⟩
  · rcases h.get? loc with hsame | ⟨-, hdir, -⟩
    · exact .inr ⟨hsame ▸ hnone', hdir', hway'⟩
    · rw [hdir] at hnone'
      cases hnone'

/-- A single directory that was made. -/
theorem of_makeDirectory (h : t.makeDirectory p = .ok t') : Grown p t t' := by
  obtain ⟨loc, hloc, hnone, rfl⟩ := exists_of_make h
  have hne := ne_nil_of_get?_eq_none hnone
  have hdirs : ∀ other, t.get? other = some .directory →
      (t.set loc .directory).get? other = some .directory := by
    intro other hother
    rw [get?_set t hne, hother, ite_self]
  have hlinks : ∀ other, (t.set loc .directory).link? other = t.link? other := by
    intro other
    rw [FileTree.link?, FileTree.link?, get?_set t hne]
    by_cases hother : other = loc
    · rw [if_pos hother, hother, hnone]
    · rw [if_neg hother]
  refine ⟨rfl, rfl, rfl, fun other => ?_⟩
  by_cases hother : other = loc
  · subst hother
    refine .inr ⟨hnone, ?_, p, .refl p, locate_of_directories hdirs hlinks rfl hloc⟩
    rw [get?_set t hne, if_pos rfl]
  · exact .inl (by rw [get?_set t hne, if_neg hother])

end Grown

theorem makeDirectoriesFrom_grown (anchor : Anchor) (names : List String) (t : FileTree) :
    Grown ⟨anchor, names.reverse⟩ t (makeDirectoriesFrom anchor names t).1 := by
  induction names generalizing t with
  | nil => exact .refl _ t
  | cons name above ih =>
    have hup : Path.Encloses ⟨anchor, above.reverse⟩ ⟨anchor, (name :: above).reverse⟩ :=
      ⟨rfl, by rw [List.reverse_cons]; exact List.prefix_append _ _⟩
    have habove := ih t
    rw [makeDirectoriesFrom]
    split
    · next hmade => exact .of_makeDirectory hmade
    · split
      · exact .refl _ t
      · split
        · next heq =>
          rw [heq] at habove
          exact habove.trans (.refl _ _) hup
        · next heq =>
          rw [heq] at habove
          split
          · next hmade => exact habove.trans (.of_makeDirectory hmade) hup
          · exact habove.trans (.refl _ _) hup
    · exact .refl _ t

/-- **What making a directory does**, whether it succeeds or not: directories come into being on
the way to it, and all else stays. -/
theorem makeDirectories_grown (t : FileTree) (p : Path) : Grown p t (t.makeDirectories p).1 := by
  rw [makeDirectories]
  split
  · exact .refl p t
  · have h := makeDirectoriesFrom_grown p.anchor p.names.reverse t
    rwa [List.reverse_reverse] at h

/-- There is a directory at the path. -/
def HasDirectory (t : FileTree) (p : Path) : Prop :=
  ∃ loc, t.reach p = .ok loc ∧ t.get? loc = some .directory

theorem hasDirectory_of_makeDirectory (h : t.makeDirectory p = .ok t') : t'.HasDirectory p := by
  have hgrown := Grown.of_makeDirectory h
  obtain ⟨loc, hloc, hnone, rfl⟩ := exists_of_make h
  have hdir : (t.set loc .directory).get? loc = some .directory := by
    rw [get?_set t (ne_nil_of_get?_eq_none hnone), if_pos rfl]
  have hlink : (t.set loc .directory).link? loc = none := by
    rw [link?, hdir]
  exact ⟨loc, reach_of_locate (hgrown.locate hloc) hlink, hdir⟩

theorem hasDirectory_of_settle {e : FileError} (h : t.settle p e = .ok ()) : t.HasDirectory p := by
  rw [settle] at h
  split at h
  · next hdir =>
    rw [isDirectory] at hdir
    split at hdir
    · next loc hloc => exact ⟨loc, hloc, by simpa using hdir⟩
    · cases hdir
  · cases h

theorem hasDirectory_of_makeDirectoriesFrom {anchor : Anchor} {name : String}
    {above : List String} (h : makeDirectoriesFrom anchor (name :: above) t = (t', .ok ())) :
    t'.HasDirectory ⟨anchor, (name :: above).reverse⟩ := by
  rw [makeDirectoriesFrom] at h
  split at h
  · next hmade =>
    obtain ⟨rfl, -⟩ := Prod.mk.inj h
    exact hasDirectory_of_makeDirectory hmade
  · split at h
    · cases (Prod.mk.inj h).2
    · split at h
      · cases (Prod.mk.inj h).2
      · split at h
        · next hmade =>
          obtain ⟨rfl, -⟩ := Prod.mk.inj h
          exact hasDirectory_of_makeDirectory hmade
        · obtain ⟨rfl, hsettle⟩ := Prod.mk.inj h
          exact hasDirectory_of_settle hsettle
  · obtain ⟨rfl, hsettle⟩ := Prod.mk.inj h
    exact hasDirectory_of_settle hsettle

/-- **A directory that was made is found from then on**, as long as no directory changes. -/
theorem makeDirectories_again {t'' : FileTree} (h : t.makeDirectories p = (t', .ok ()))
    (hsame : SameLayout t' t'') : t''.makeDirectories p = (t'', .ok ()) := by
  rw [makeDirectories] at h
  split at h
  · cases (Prod.mk.inj h).2
  · next hnul =>
    cases hnames : p.names.reverse with
    | nil =>
      rw [makeDirectories, if_neg hnul, hnames]
      rfl
    | cons name above =>
      have hpath : (⟨p.anchor, (name :: above).reverse⟩ : Path) = p := by
        rw [← hnames, List.reverse_reverse]
      rw [hnames] at h
      obtain ⟨loc, hloc, hdir⟩ := hpath ▸ hasDirectory_of_makeDirectoriesFrom h
      exact makeDirectories_of_reach (hsame.reach hloc) ((hsame.directory loc).mp hdir)

end FileTree

end StackLang
