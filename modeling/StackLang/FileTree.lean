import StackLang.OsError
import StackLang.Path
import StackLang.Text.Utf8

/-!
# Files and directories

A table from locations to files, directories and links. A location is the list of names that leads
to it from the root; the root is always a directory. A file with several names stands in the table
under each of them by its number, and what it holds is kept apart, once for all its names. Some
locations are sealed: a directory there gets and loses no names, and a file there is not written.

A path is followed name by name. Every place on the way must be an existing directory, so a name
below a file or below nothing is refused before the last name is looked at, and two dots lead back
up only from a directory that exists. A name of more than 255 bytes is refused where it is looked
up. A link on the way is replaced by the names that it holds, up to forty times. A link at the end
is replaced too when a file is read or written; it is the link itself that is removed, or in the
way of a new directory.

## Main definitions

* `FileTree`, `FileTree.get?`, `FileTree.set`, `FileTree.erase`: the table
* `FileTree.locate`: the place of the last name of a path
* `FileTree.reach`: the location that a path leads to, links included
* `FileTree.read`, `FileTree.write`, `FileTree.remove`, `FileTree.makeDirectory`,
  `FileTree.makeLink`: one file, directory or link at a path
* `FileTree.makeDirectories`, `FileTree.makeNewDirectory`: a directory with all its parents
* `FileTree.listing`: everything below a location

## Main results

* `FileTree.get?_set`, `FileTree.get?_erase`: what the two changes do to the table
-/

namespace StackLang

/-- The names that lead from the root to a place. -/
abbrev Location := List String

/-- What is at a location. -/
inductive FileNode
  | file (bytes : Bytes)
  | directory
  /-- A symbolic link, which stands for a path. -/
  | link (target : Path)
  /-- One of the names of a file that has several. -/
  | shared (number : Nat)
  deriving DecidableEq, Repr

/-- Whether a node is a file with a single name. -/
def FileNode.isFile : FileNode → Bool
  | .file _ => true
  | _ => false

/-- The files, directories and links, the working directory, what the files with several names hold,
and the locations that may not be changed. -/
structure FileTree where
  entries : List (Location × FileNode)
  here : Location := []
  bodies : List (Nat × Bytes) := []
  sealed : List Location := []
  deriving DecidableEq, Repr

namespace FileTree

/-! ## The table -/

/-- What is at a location. -/
def get? (t : FileTree) (loc : Location) : Option FileNode :=
  if loc = [] then some .directory else t.entries.lookup loc

/-- The table without a location. -/
def without (loc : Location) : List (Location × FileNode) → List (Location × FileNode)
  | [] => []
  | (l, x) :: es => if l = loc then without loc es else (l, x) :: without loc es

/-- Put a node at a location. -/
def set (t : FileTree) (loc : Location) (node : FileNode) : FileTree :=
  { t with entries := (loc, node) :: without loc t.entries }

/-- Take away what is at a location. -/
def erase (t : FileTree) (loc : Location) : FileTree :=
  { t with entries := without loc t.entries }

/-- What a file with several names holds. -/
def body (t : FileTree) (number : Nat) : Bytes := (t.bodies.lookup number).getD []

/-- Write a file with several names. -/
def setBody (t : FileTree) (number : Nat) (bytes : Bytes) : FileTree :=
  { t with bodies := (number, bytes) :: t.bodies }

/-- The path that the link at a location stands for, if a link is there. -/
def link? (t : FileTree) (loc : Location) : Option Path :=
  match t.get? loc with
  | some (.link target) => some target
  | _ => none

/-- Whether a location may not be changed. -/
def isSealed (t : FileTree) (loc : Location) : Bool := t.sealed.contains loc

theorem lookup_without (loc other : Location) (entries : List (Location × FileNode)) :
    (without loc entries).lookup other = if other = loc then none else entries.lookup other := by
  induction entries with
  | nil => simp [without]
  | cons e es ih =>
    obtain ⟨l, x⟩ := e
    simp only [without, List.lookup_cons]
    by_cases hl : l = loc
    · by_cases ho : other = loc
      · subst ho
        rw [if_pos hl, if_pos rfl, ih, if_pos rfl]
      · have hb : (other == loc) = false := by simpa using ho
        simp [hl, ho, hb, ih]
    · by_cases hol : other = l
      · simp [hl, hol]
      · have hb : (other == l) = false := by simpa using hol
        simp [hl, hb, ih, List.lookup_cons]

/-- **A node is found where it was put, and all others are as before.** -/
theorem get?_set (t : FileTree) {loc : Location} (h : loc ≠ []) (node : FileNode)
    (other : Location) :
    (t.set loc node).get? other = if other = loc then some node else t.get? other := by
  by_cases ho : other = loc
  · subst ho
    simp [get?, set, h]
  · have : (other == loc) = false := by simpa using ho
    simp [get?, set, ho, List.lookup_cons, this, lookup_without]

/-- **A location is empty after its node was taken away, and all others are as before.** -/
theorem get?_erase (t : FileTree) {loc : Location} (h : loc ≠ []) (other : Location) :
    (t.erase loc).get? other = if other = loc then none else t.get? other := by
  by_cases ho : other = loc
  · subst ho
    simp [get?, erase, h, lookup_without]
  · simp [get?, erase, ho, lookup_without]

/-! ## Paths -/

/-- The greatest number of bytes in a name. -/
def maxNameBytes : Nat := 255

/-- Whether a name is too long to be looked up. -/
def isLongName (name : String) : Bool := (Text.encode name).length > maxNameBytes

/-- Whether a text holds a null character. -/
def hasNul (s : String) : Bool := s.toList.any fun c => c.toNat = 0

/-- The place of a name in a directory. -/
def enter (t : FileTree) (loc : Location) (name : String) : Except Errno Location :=
  match t.get? loc with
  | none => .error .notFound
  | some .directory =>
    if isLongName name then .error .nameTooLong
    else .ok (if name = ".." then loc.dropLast else loc ++ [name])
  | some _ => .error .notDirectory

/-- Where a path starts that is looked up in a directory. -/
def startFrom (loc : Location) : Anchor → Location
  | .here => loc
  | _ => []

/-- Follow names from a location. At a link it is left to `turn` to go on, from the start of the
link and with its names before the others. -/
def walk (t : FileTree) (turn : Location → List String → Except Errno Location) (loc : Location) :
    List String → Except Errno Location
  | [] => .ok loc
  | name :: names =>
    match t.enter loc name with
    | .error errno => .error errno
    | .ok next =>
      match t.link? next with
      | some target => turn (startFrom loc target.anchor) (target.names ++ names)
      | none => walk t turn next names

/-- Follow names from a location, with a number of links at most. -/
def follow (t : FileTree) : Nat → Location → List String → Except Errno Location
  | 0 => t.walk fun _ _ => .error .tooManyLinks
  | links + 1 => t.walk (t.follow links)

/-- The greatest number of links on the way of a path. -/
def maxLinks : Nat := 40

/-- Where a path starts. -/
def start (t : FileTree) (anchor : Anchor) : Location := startFrom t.here anchor

/-- Ask the operating system for a path. -/
def ask {α : Type} (p : Path) (answer : Except Errno α) : Except FileError α :=
  if hasNul p.text then .error .nul
  else match answer with
    | .ok a => .ok a
    | .error errno => .error (.os ⟨errno, p.text⟩)

/-- The location that a path leads to; something may be there or not. -/
def reach (t : FileTree) (p : Path) : Except FileError Location :=
  ask p (t.follow maxLinks (t.start p.anchor) p.names)

/-- The place of the last name of a path; something may be there or not. If it is a link, the path
leads further. -/
def locate (t : FileTree) (p : Path) : Except FileError Location :=
  ask p (match p.names.getLast? with
    | none => .ok (t.start p.anchor)
    | some name =>
      match t.follow maxLinks (t.start p.anchor) p.names.dropLast with
      | .ok loc => t.enter loc name
      | .error errno => .error errno)

/-- The operating system refuses a path. -/
def refuse {α : Type} (p : Path) (errno : Errno) : Except FileError α :=
  .error (.os ⟨errno, p.text⟩)

/-- The contents of the file at a path. -/
def read (t : FileTree) (p : Path) : Except FileError Bytes := do
  match t.get? (← t.reach p) with
  | some (.file bytes) => return bytes
  | some (.shared number) => return t.body number
  | some .directory => refuse p .isDirectory
  | some (.link _) => refuse p .tooManyLinks
  | none => refuse p .notFound

/-- Write a file at a path, in place of the file that was there. -/
def write (t : FileTree) (p : Path) (bytes : Bytes) : Except FileError FileTree := do
  let loc ← t.reach p
  match t.get? loc with
  | none => if t.isSealed loc.dropLast then refuse p .permission else return t.set loc (.file bytes)
  | some .directory => refuse p .isDirectory
  | some (.link _) => refuse p .tooManyLinks
  | some (.file _) =>
    if t.isSealed loc then refuse p .permission else return t.set loc (.file bytes)
  | some (.shared number) =>
    if t.isSealed loc then refuse p .permission else return t.setBody number bytes

/-- Remove the file or link at a path. -/
def remove (t : FileTree) (p : Path) : Except FileError FileTree := do
  let loc ← t.locate p
  match t.get? loc with
  | none => refuse p .notFound
  | some node =>
    if t.isSealed loc.dropLast then refuse p .permission
    else if node = .directory then refuse p .isDirectory
    else return t.erase loc

/-- Make something new at a path where nothing is. -/
def make (t : FileTree) (p : Path) (node : FileNode) : Except FileError FileTree := do
  let loc ← t.locate p
  match t.get? loc with
  | some _ => refuse p .fileExists
  | none => if t.isSealed loc.dropLast then refuse p .permission else return t.set loc node

/-- Make a directory at a path where nothing is. -/
def makeDirectory (t : FileTree) (p : Path) : Except FileError FileTree := t.make p .directory

/-- Make a link at a path where nothing is. -/
def makeLink (t : FileTree) (target p : Path) : Except FileError FileTree :=
  t.make p (.link target)

/-- Whether there is a directory at a path. -/
def isDirectory (t : FileTree) (p : Path) : Bool :=
  match t.reach p with
  | .ok loc => t.get? loc = some .directory
  | .error _ => false

/-! ## Directories with their parents -/

/-- An attempt to make a directory counts as done when one is there. -/
def settle (t : FileTree) (p : Path) (e : FileError) : Except FileError Unit :=
  if t.isDirectory p then .ok () else .error e

/-- Make the directory whose names, in reverse, are given, and those above it. When a place on the
way is missing, the directories above are made first. What has been made stays. -/
def makeDirectoriesFrom (anchor : Anchor) : List String → FileTree →
    FileTree × Except FileError Unit
  | [], t => (t, .ok ())
  | name :: above, t =>
    let p : Path := ⟨anchor, (name :: above).reverse⟩
    match t.makeDirectory p with
    | .ok t' => (t', .ok ())
    | .error (.os ⟨.notFound, path⟩) =>
      if above = [] then (t, .error (.os ⟨.notFound, path⟩))
      else match makeDirectoriesFrom anchor above t with
        | (t', .error e) => (t', .error e)
        | (t', .ok ()) =>
          match t'.makeDirectory p with
          | .ok t'' => (t'', .ok ())
          | .error e => (t', t'.settle p e)
    | .error e => (t, t.settle p e)

/-- Make a directory and those above it, unless they are there. -/
def makeDirectories (t : FileTree) (p : Path) : FileTree × Except FileError Unit :=
  if hasNul p.text then (t, .error .nul)
  else makeDirectoriesFrom p.anchor p.names.reverse t

/-- Make a directory where nothing is, and those above it unless they are there. -/
def makeNewDirectory (t : FileTree) (p : Path) : FileTree × Except FileError Unit :=
  match t.makeDirectory p with
  | .ok t' => (t', .ok ())
  | .error (.os ⟨.notFound, path⟩) =>
    if p.parent.names = [] then (t, .error (.os ⟨.notFound, path⟩))
    else match t.makeDirectories p.parent with
      | (t', .error e) => (t', .error e)
      | (t', .ok ()) =>
        match t'.makeDirectory p with
        | .ok t'' => (t'', .ok ())
        | .error e => (t', .error e)
  | .error e => (t, .error e)

/-! ## Listings -/

/-- The path of a node as seen from a location above it; a directory ends in a slash. -/
def shown (base : Location) (e : Location × FileNode) : String :=
  "/".intercalate (e.1.drop base.length) ++ (if e.2 = .directory then "/" else "")

/-- Everything below a location, in the order of the texts. -/
def listing (t : FileTree) (base : Location) : List String :=
  let below := t.entries.filter fun e => base.isPrefixOf e.1 && e.1 ≠ base
  (below.map (shown base)).mergeSort fun a b => decide (a ≤ b)

end FileTree

end StackLang
