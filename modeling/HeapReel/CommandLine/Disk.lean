/-
The files that a command works on.

The command reads one file and writes another, and nothing else about the disk concerns it.
A disk is therefore the three things that can be asked of it, in whatever way it answers.
-/

namespace HeapReel.CommandLine

/-- Why a file cannot be used. -/
inductive FileError where
  | missing
  | notFolder
  | isFolder
  | nameTooLong
  deriving Repr, DecidableEq

/-- The text of the error. -/
def FileError.message : FileError → String
  | .missing => "No such file or directory (os error 2)"
  | .notFolder => "Not a directory (os error 20)"
  | .isFolder => "Is a directory (os error 21)"
  | .nameTooLong => "File name too long (os error 36)"

/-- A place with files. -/
structure Disk (m : Type → Type) (ε : Type) where
  /-- All bytes of a file. -/
  read : String → m (Except ε ByteArray)
  /-- Makes an empty file, or empties one. -/
  create : String → m (Except ε Unit)
  /-- Puts bytes into a file that has been made. -/
  fill : String → ByteArray → m Unit

end HeapReel.CommandLine
