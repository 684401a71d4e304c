import StackLang.Number.Numeral
import StackLang.Text.Quoted

/-!
# Errors of the operating system

What can go wrong with a path: a number and a text that the operating system gives, and the path
it was asked for. A path with a null character is not even asked for.

## Main definitions

* `Errno`: the errors, with `Errno.number` and `Errno.text`
* `OsError`, `FileError`: an error with its path, and the null character beside it
-/

namespace StackLang

/-- The errors that the file system and the start of a program can give. -/
inductive Errno
  | notFound
  | permission
  | fileExists
  | notDirectory
  | isDirectory
  | nameTooLong
  | tooManyLinks
  deriving DecidableEq, Repr

namespace Errno

/-- The number of an error. -/
def number : Errno → Nat
  | .notFound => 2
  | .permission => 13
  | .fileExists => 17
  | .notDirectory => 20
  | .isDirectory => 21
  | .nameTooLong => 36
  | .tooManyLinks => 40

/-- The text of an error. -/
def text : Errno → String
  | .notFound => "No such file or directory"
  | .permission => "Permission denied"
  | .fileExists => "File exists"
  | .notDirectory => "Not a directory"
  | .isDirectory => "Is a directory"
  | .nameTooLong => "File name too long"
  | .tooManyLinks => "Too many levels of symbolic links"

end Errno

/-- An error and the path that was asked for. -/
structure OsError where
  errno : Errno
  path : String
  deriving DecidableEq, Repr

/-- The error with its number, its text and the path in quotes. -/
def OsError.message (e : OsError) : String :=
  "[Errno " ++ Number.nat e.errno.number ++ "] " ++ e.errno.text ++ ": " ++ Text.quoted e.path

/-- Why a file operation fails. -/
inductive FileError
  /-- The path holds a null character. -/
  | nul
  /-- The operating system refuses. -/
  | os (error : OsError)
  deriving DecidableEq, Repr

end StackLang
