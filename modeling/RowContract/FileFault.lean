/-!
What an operating system says about files that cannot be used, and how long the
names of files may be.
-/

namespace RowContract

inductive FileFault where
  /-- There is no such file. -/
  | missing
  /-- A file is used as a directory. -/
  | notDirectory
  /-- A directory is used as a file. -/
  | isDirectory
  | nameTooLong
  deriving DecidableEq, Repr

namespace FileFault

def message : FileFault → String
  | .missing => "No such file or directory (os error 2)"
  | .notDirectory => "Not a directory (os error 20)"
  | .isDirectory => "Is a directory (os error 21)"
  | .nameTooLong => "File name too long (os error 36)"

/-- How long a name within a path may be, in bytes. -/
def maxNameLength : Nat := 255

def maxPathLength : Nat := 4095

end FileFault

end RowContract
