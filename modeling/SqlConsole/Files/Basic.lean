import SqlConsole.Text.Basic
/-!
# Files

What the program does with files, whatever keeps them.  A path is a text whose parts stand between
slashes; parts that are empty, and the part `.` behind the first, lead nowhere.
-/

namespace SqlConsole

/-- The ways to files.  What fails says why. -/
structure Files (m : Type → Type) where
  read : Text → m (Except Text Text)
  /-- Open a file to write at its end, and create it if it is not there. -/
  openEnd : Text → m (Except Text Unit)
  /-- Whether there is a file or directory. -/
  isThere : Text → m Bool
  /-- Create a directory and those that it is in, and say whether it is there now. -/
  createDirectory : Text → m Bool

namespace Files

def inDirectory (directory name : Text) : Text :=
  if directory.isEmpty then name
  else if directory.getLast? = some '/' then directory ++ name
  else directory ++ ['/'] ++ name

/-- Drop the last parts of a path as far as they lead nowhere. -/
def dropIdle (parts : List Text) : List Text :=
  (parts.reverse.dropWhile fun part => part.isEmpty || part == ['.']).reverse

/-- The directory that a path is in, as the path spells it; empty for a path of one part. -/
def directoryOf (path : Text) : Text :=
  match Text.fields '/' path with
  | [] => []
  | first :: others =>
    match dropIdle others with
    | [] => []
    | last :: names =>
      let directory := dropIdle (last :: names).dropLast
      if first.isEmpty && directory.isEmpty then ['/'] else Text.join ['/'] (first :: directory)

end Files

end SqlConsole
