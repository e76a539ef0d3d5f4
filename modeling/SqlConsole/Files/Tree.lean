import Std.Data.TreeMap
import SqlConsole.Files.Basic
/-!
# File trees

Directories and files that are kept in memory.  A path is walked part by part, beginning at the
root or at the working directory; `.` stays where it is and `..` goes back to the directory before.
What is wrong is noticed where the walk comes upon it: a name is looked up, and found to be too
long or missing, only in a directory that has been reached.
-/

namespace SqlConsole

/-- Why a path leads to no file that can be read or written. -/
inductive FileFault where
  | missing
  /-- The path goes on behind a file. -/
  | notDirectory
  | isDirectory
  /-- The path, or a name in it, is longer than any can be. -/
  | nameTooLong
  | notText
  deriving DecidableEq, Repr

/-- Why a path leads to no file, in words. -/
def FileFault.message : FileFault → Text
  | missing => "No such file or directory (os error 2)"
  | notDirectory => "Not a directory (os error 20)"
  | isDirectory => "Is a directory (os error 21)"
  | nameTooLong => "File name too long (os error 36)"
  | notText => "stream did not contain valid UTF-8"

/-- What a name in a directory stands for. -/
inductive FileEntry where
  | directory
  /-- A file with a text in it, or with bytes that are none. -/
  | file (content : Option Text)
  /-- A text that is gone once it has been read. -/
  | stream (content : Text)
  deriving DecidableEq, Repr

/-- Directories and files by the names on the way to them from the root, which is always there. -/
structure FileTree where
  entries : Std.TreeMap (List Text) FileEntry
  /-- Where paths begin that do not begin at the root. -/
  workingDirectory : List Text

namespace FileTree

/-- The most bytes that a name can have. -/
def nameLimit : Nat := 255

/-- The most bytes that a path can have. -/
def pathLimit : Nat := 4095

/-- Where a path ends. -/
inductive Place where
  /-- At a directory without its name: the root, `.` or `..`. -/
  | directory
  /-- At a name in a directory; whether a slash follows it, as if it were a directory. -/
  | name (directory : List Text) (name : Text) (slash : Bool)
  deriving DecidableEq, Repr

/-- Look up a name in a directory. -/
def find? (t : FileTree) (directory : List Text) (name : Text) :
    Except FileFault (Option FileEntry) :=
  if nameLimit < Text.byteLength name then .error .nameTooLong
  else .ok t.entries[directory ++ [name]]?

/-- Walk on from a directory to a directory. -/
def descend (t : FileTree) (directory : List Text) : List Text → Except FileFault (List Text)
  | [] => .ok directory
  | name :: rest =>
    if name = ['.'] then descend t directory rest
    else if name = ['.', '.'] then descend t directory.dropLast rest
    else match t.find? directory name with
      | .error fault => .error fault
      | .ok none => .error .missing
      | .ok (some .directory) => descend t (directory ++ [name]) rest
      | .ok (some (.file _)) | .ok (some (.stream _)) => .error .notDirectory

/-- Where a path begins. -/
def base (t : FileTree) (path : Text) : List Text :=
  if path.head? = some '/' then [] else t.workingDirectory

/-- The parts of a path that are walked. -/
def steps (path : Text) : List Text := (Text.fields '/' path).filter fun part => !part.isEmpty

/-- Where a path ends. -/
def place (t : FileTree) (path : Text) : Except FileFault Place :=
  if path.isEmpty then .error .missing
  else if pathLimit < Text.byteLength path then .error .nameTooLong
  else match (steps path).getLast? with
    | none => .ok .directory
    | some last => do
      let directory ← t.descend (t.base path) (steps path).dropLast
      if last = ['.'] || last = ['.', '.'] then return .directory
      else return .name directory last (path.getLast? = some '/')

/-- Keep an entry under a name in a directory. -/
def insert (t : FileTree) (directory : List Text) (name : Text) (entry : FileEntry) : FileTree :=
  { t with entries := t.entries.insert (directory ++ [name]) entry }

def read (t : FileTree) (path : Text) : Except FileFault (Text × FileTree) := do
  match ← t.place path with
  | .directory => throw .isDirectory
  | .name directory name slash =>
    match ← t.find? directory name, slash with
    | none, _ => throw .missing
    | some .directory, _ => throw .isDirectory
    | some _, true => throw .notDirectory
    | some (.file none), false => throw .notText
    | some (.file (some text)), false => return (text, t)
    | some (.stream text), false => return (text, t.insert directory name (.stream []))

/-- Create a file where there is none.  A name that a slash follows is not even looked up, since no
directory is created. -/
def openEnd (t : FileTree) (path : Text) : Except FileFault FileTree := do
  match ← t.place path with
  | .directory | .name _ _ true => throw .isDirectory
  | .name directory name false =>
    match ← t.find? directory name with
    | none => return t.insert directory name (.file (some []))
    | some .directory => throw .isDirectory
    | some _ => return t

/-- Whether a path leads to something. -/
def isThere (t : FileTree) (path : Text) : Bool :=
  match t.place path with
  | .error _ => false
  | .ok .directory => true
  | .ok (.name directory name slash) =>
    match t.find? directory name with
    | .error _ | .ok none => false
    | .ok (some .directory) => true
    | .ok (some _) => !slash

/-- Walk on from a directory, create the directories on the way, and say whether the last one is
there. -/
def create (t : FileTree) (directory : List Text) : List Text → Bool × FileTree
  | [] => (true, t)
  | name :: rest =>
    if name = ['.'] then create t directory rest
    else if name = ['.', '.'] then create t directory.dropLast rest
    else match t.find? directory name with
      | .ok (some .directory) => create t (directory ++ [name]) rest
      | .ok none => create (t.insert directory name .directory) (directory ++ [name]) rest
      | .ok (some _) | .error _ => (false, t)

def createDirectory (t : FileTree) (path : Text) : Bool × FileTree :=
  if pathLimit < Text.byteLength path then (false, t) else t.create (t.base path) (steps path)

/-- Put a file at the end of a path, in directories that are created for it. -/
def put (t : FileTree) (path : Text) (content : Option Text) : FileTree :=
  let t := (t.createDirectory (Files.directoryOf path)).2
  match t.place path with
  | .ok (.name directory name _) => t.insert directory name (.file content)
  | _ => t

def files : Files (StateM FileTree) where
  read path := do
    match (← get).read path with
    | .ok (text, t) => set t; return .ok text
    | .error fault => return .error fault.message
  openEnd path := do
    match (← get).openEnd path with
    | .ok t => set t; return .ok ()
    | .error fault => return .error fault.message
  isThere path := return (← get).isThere path
  createDirectory path := modifyGet (·.createDirectory path)

end FileTree

end SqlConsole
