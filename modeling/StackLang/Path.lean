import StackLang.Text.Fields

/-!
# Paths

A path is a place to start from and a list of names. Empty names and single dots say nothing and
are dropped when a path is read, so one path has one text; two dots are kept, since only the file
system knows where they lead. A path with exactly two slashes in front starts from a place of its
own, as the rules for paths have it.

## Main definitions

* `Path`, `Path.ofString`, `Path.text`: reading and writing
* `Path.join`: a path taken from another one
* `Path.parent`: one name less
-/

namespace StackLang

/-- Where a path starts. -/
inductive Anchor
  /-- The working directory. -/
  | here
  /-- The root. -/
  | root
  /-- The root, written with two slashes. -/
  | doubleRoot
  deriving DecidableEq, Repr

/-- What stands in front of the names. -/
def Anchor.text : Anchor → String
  | .here => ""
  | .root => "/"
  | .doubleRoot => "//"

/-- A place to start from and the names to follow. -/
structure Path where
  anchor : Anchor
  names : List String
  deriving DecidableEq, Repr

namespace Path

/-- The names of a path text between its slashes, without those that say nothing. -/
def namesOf (cs : List Char) : List String :=
  ((Text.fields '/' cs).map String.ofList).filter fun n => n ≠ "" && n ≠ "."

/-- Where a path text starts: exactly two slashes are kept apart from one or many. -/
def anchorOf : List Char → Anchor
  | '/' :: '/' :: '/' :: _ => .root
  | '/' :: '/' :: _ => .doubleRoot
  | '/' :: _ => .root
  | _ => .here

/-- Read a path. -/
def ofString (s : String) : Path := ⟨anchorOf s.toList, namesOf s.toList⟩

/-- The text of a path. The working directory itself is a dot. -/
def text (p : Path) : String :=
  if p.anchor = .here && p.names = [] then "."
  else p.anchor.text ++ "/".intercalate p.names

/-- The path `q` taken from `p`: a path that starts from a root stays as it is. -/
def join (p q : Path) : Path :=
  if q.anchor = .here then { p with names := p.names ++ q.names } else q

/-- The path without its last name. -/
def parent (p : Path) : Path := { p with names := p.names.dropLast }

end Path

end StackLang
