import CalcWatch.Text

/-!
# Files

A session reads files through a function that it is given, so it is enough to say what such a
function may answer, and to have one that needs no disk.

## Why a file cannot be read

The words and the number under which the operating system reports each problem.

## Files held in memory

A tree of directories and files, and what a path leads to in it. A session that reads from such a
tree behaves as one that reads from the file system, so its course can be followed without a disk.
-/

namespace CalcWatch

/-! ## Why a file cannot be read -/

/-- Why a file cannot be read. -/
inductive FileProblem where
  /-- There is no such file. -/
  | missing
  /-- It may not be read. -/
  | denied
  /-- Its path leads through a file. -/
  | notDirectory
  /-- It is a directory. -/
  | isDirectory
  /-- Its name is too long. -/
  | nameTooLong
  /-- Anything else the system has a word for. -/
  | other (number : Nat) (words : String)
deriving DecidableEq, Repr

namespace FileProblem

def ofNumber (number : Nat) (words : String) : FileProblem :=
  match number with
  | 2 => missing
  | 13 => denied
  | 20 => notDirectory
  | 21 => isDirectory
  | 36 => nameTooLong
  | _ => other number words

def number : FileProblem → Nat
  | missing => 2
  | denied => 13
  | notDirectory => 20
  | isDirectory => 21
  | nameTooLong => 36
  | other number _ => number

def words : FileProblem → String
  | missing => "No such file or directory"
  | denied => "Permission denied"
  | notDirectory => "Not a directory"
  | isDirectory => "Is a directory"
  | nameTooLong => "File name too long"
  | other _ words => words

/-- The problem with its number. -/
def message (problem : FileProblem) : String :=
  problem.words ++ " (os error " ++ Text.decimal problem.number ++ ")"

end FileProblem

/-! ## Files held in memory -/

/-- What a path can lead to. -/
inductive FileTree where
  /-- A file with its contents. -/
  | file (contents : List UInt8)
  /-- A directory with the names in it. -/
  | directory (entries : List (String × FileTree))

namespace FileTree

/-- The number of bytes in the longest name of a directory entry. -/
def longestName : Nat := 255

/-- The number of bytes in the longest path. -/
def longestPath : Nat := 4095

def contents : FileTree → Except FileProblem (List UInt8)
  | file bytes => .ok bytes
  | directory _ => .error .isDirectory

/-- What a name stands for in a directory. -/
def entry (name : String) (entries : List (String × FileTree)) : Except FileProblem FileTree :=
  if longestName < name.utf8ByteSize then .error .nameTooLong
  else
    match entries.lookup name with
    | some tree => .ok tree
    | none => .error .missing

/-- Follows the parts of a path from a place below the directories `above`, the nearest first. The
directory above the topmost one is the topmost one itself. -/
def follow (here : FileTree) (above : List FileTree) :
    List String → Except FileProblem FileTree
  | [] => .ok here
  | part :: parts =>
    match here with
    | file _ => .error .notDirectory
    | directory entries =>
      if part = "" ∨ part = "." then follow here above parts
      else if part = ".." then
        match above with
        | [] => follow here [] parts
        | parent :: above => follow parent above parts
      else do
        let tree ← entry part entries
        follow tree (here :: above) parts

/-- What a path leads to from a place below the directories `above`. A path that begins with a slash
is followed from the topmost directory. -/
def find (here : FileTree) (above : List FileTree) (path : String) :
    Except FileProblem FileTree :=
  if longestPath < path.utf8ByteSize then .error .nameTooLong
  else if path.startsWith "/" then follow (above.getLast?.getD here) [] (path.splitOn "/")
  else follow here above (path.splitOn "/")

/-- The contents of the file at a path. -/
def read (here : FileTree) (above : List FileTree) (path : String) :
    Except FileProblem (List UInt8) := do
  (← find here above path).contents

end FileTree

end CalcWatch
