import Lalr.Text.Utf8

set_option autoImplicit false

/-!
Trees of files and what paths lead to in them. A tree begins at the outermost directory; the
program works in one of its directories, where all paths start that do not begin with a
slash.
-/

namespace Lalr

/-- A file with its bytes, or a directory. -/
inductive FileTree where
  | file (content : List UInt8)
  | directory (entries : List (String × FileTree))
deriving Repr, Inhabited

/-- Why a path cannot be used. -/
inductive FileError where
  | notFound
  | notADirectory
  | isADirectory
  /-- A path or one of its steps is longer than paths and names may be. -/
  | nameTooLong
  /-- A path has the character that ends paths. -/
  | nulInName
deriving DecidableEq, Repr

/-- The wording of an error. -/
def FileError.message : FileError → String
  | .notFound => "No such file or directory (os error 2)"
  | .notADirectory => "Not a directory (os error 20)"
  | .isADirectory => "Is a directory (os error 21)"
  | .nameTooLong => "File name too long (os error 36)"
  | .nulInName => "file name contained an unexpected NUL byte"

/-- A way to get the bytes of the file that a path leads to. -/
abbrev FileReader := String → Except FileError (List UInt8)

/-- The steps of a path. An empty step, as behind a last slash, leads nowhere else. -/
def pathSteps (path : String) : List String :=
  (path.toList.splitOn '/').map String.ofList

/-- The steps to the directory in which the program works. -/
def workingDirectory : List String :=
  ["work"]

/-- The steps of a path from the outermost directory on. -/
def absoluteSteps (path : String) : List String :=
  if path.startsWith "/" then pathSteps path else workingDirectory ++ pathSteps path

/-- How many bytes a name may have. -/
def nameLimit : Nat := 255

/-- How many bytes a path may have. -/
def pathLimit : Nat := 4095

/-- Whether a name is too long for a file. -/
def isTooLong (name : String) : Bool :=
  nameLimit < Text.utf8Length name.toList

/-- Refuses the paths that cannot lead anywhere in any tree. -/
def checkPath (path : String) : Except FileError Unit :=
  if '\x00' ∈ path.toList then .error .nulInName
  else if path.isEmpty then .error .notFound
  else if pathLimit < Text.utf8Length path.toList then .error .nameTooLong
  else .ok ()

/-- A path inside a directory. -/
def joinPath (directory name : String) : String :=
  if directory.isEmpty || directory.endsWith "/" then directory ++ name
  else directory ++ "/" ++ name

namespace FileTree

/-- The empty directory. -/
def empty : FileTree :=
  .directory []

/-- The tree with nothing but directories on the way to the one in which the program
works. -/
def working : FileTree :=
  workingDirectory.foldr (fun name tree => .directory [(name, tree)]) empty

/-- What the steps of a path lead to from a place; `above` are the directories around
it, the nearest first. The outermost directory is its own parent. -/
def follow (above : List FileTree) (here : FileTree) :
    List String → Except FileError FileTree
  | [] => .ok here
  | step :: steps =>
      match here with
      | .file _ => .error .notADirectory
      | .directory entries =>
          if step = "" || step = "." then follow above here steps
          else if step = ".." then
            match above with
            | [] => follow [] here steps
            | parent :: above => follow above parent steps
          else if isTooLong step then .error .nameTooLong
          else
            match entries.lookup step with
            | none => .error .notFound
            | some next => follow (here :: above) next steps

/-- What a path leads to. The empty path leads nowhere. -/
def find (tree : FileTree) (path : String) : Except FileError FileTree := do
  checkPath path
  follow [] tree (absoluteSteps path)

/-- Whether a path leads to something. -/
def contains (tree : FileTree) (path : String) : Bool :=
  (tree.find path).isOk

/-- Whether something is a file. -/
def isFile : FileTree → Bool
  | .file _ => true
  | .directory _ => false

/-- The bytes of the file that a path leads to. -/
def read (tree : FileTree) : FileReader := fun path => do
  match ← tree.find path with
  | .file content => .ok content
  | .directory _ => .error .isADirectory

/-- Puts an entry in the place of the one with its name, or behind all others. -/
def setEntry (name : String) (entry : FileTree) :
    List (String × FileTree) → List (String × FileTree)
  | [] => [(name, entry)]
  | (first, old) :: entries =>
      if first = name then (name, entry) :: entries
      else (first, old) :: setEntry name entry entries

/-- Puts an entry at the end of the steps of a path without `..`. Directories that are
not there are made if `parents` says so; files are only replaced by files. -/
def place (parents : Bool) (entry : FileTree) : List String → FileTree → Except FileError FileTree
  | [], here =>
      match here, entry with
      | .directory _, .directory _ => .ok here
      | .directory _, .file _ => .error .isADirectory
      | .file _, .directory _ => .error .notADirectory
      | .file _, .file _ => .ok entry
  | _ :: _, .file _ => .error .notADirectory
  | step :: steps, .directory entries =>
      match entries.lookup step with
      | some below => do
          pure (.directory (setEntry step (← place parents entry steps below) entries))
      | none =>
          if steps.isEmpty then .ok (.directory (setEntry step entry entries))
          else if parents then do
            pure (.directory (setEntry step (← place parents entry steps empty) entries))
          else .error .notFound

/-- The steps of a path that lead further, those up being taken back where they can. -/
def plainSteps (path : String) : List String :=
  ((absoluteSteps path).foldl (fun steps step =>
    if step = "" || step = "." then steps
    else if step = ".." then steps.drop 1
    else step :: steps) []).reverse

/-- Writes a file into an existing directory. -/
def write (tree : FileTree) (path : String) (content : List UInt8) : Except FileError FileTree := do
  checkPath path
  let steps := absoluteSteps path
  let name := steps.getLast?.getD ""
  match ← follow [] tree steps.dropLast with
  | .file _ => .error .notADirectory
  | .directory _ =>
      if name = "" || name = "." || name = ".." then .error .isADirectory
      else if isTooLong name then .error .nameTooLong
      else place false (.file content) (plainSteps path) tree

/-- The tree of some files, given by path; a path with a slash at its end is an empty
directory. The directories around them are made. -/
def ofFiles (files : List (String × List UInt8)) : Except FileError FileTree :=
  files.foldlM (fun tree (path, content) =>
    let entry := if path.endsWith "/" then empty else .file content
    place true entry (plainSteps path) tree) working

mutual

/-- The paths of all files of a tree that is itself called `path`, depth first, the
entries of a directory by name. -/
def files (path : String) : FileTree → List String
  | .file _ => [path]
  | .directory entries =>
      ((filesOf path entries).mergeSort fun first second => first.1 ≤ second.1).flatMap Prod.snd

/-- The files below each entry of a directory, with the name of the entry. -/
def filesOf (path : String) : List (String × FileTree) → List (String × List String)
  | [] => []
  | (name, entry) :: entries =>
      (name, entry.files (joinPath path name)) :: filesOf path entries

end

end FileTree

end Lalr
