import Lalr.Files.Tree

set_option autoImplicit false

/-!
Which files are sources, and how they are found.
-/

namespace Lalr

/-- The last step of a path that names something; there is none behind `..`. -/
def fileName? (path : String) : Option String :=
  match ((pathSteps path).filter fun step => step ≠ "" && step ≠ ".").getLast? with
  | some ".." => none
  | name => name

/-- What stands behind the last dot of a file name, unless that dot is the first
character. -/
def extension? (path : String) : Option String := do
  let name ← fileName? path
  match (name.toList.splitOn '.').reverse with
  | last :: before :: more =>
      if before.isEmpty && more.isEmpty then none else some (String.ofList last)
  | _ => none

/-- Texts that differ in the case of ASCII letters only. -/
def equalIgnoringCase (first second : String) : Bool :=
  first.toList.map Char.toLower == second.toList.map Char.toLower

/-- Whether a path has one of the extensions. -/
def hasExtension (path : String) (extensions : List String) : Bool :=
  (extension? path).any fun found => extensions.any (equalIgnoringCase found)

/-- No path leads to something at a place where sources are looked for. -/
structure MissingPath where
  path : String
deriving DecidableEq, Repr

/-- The wording of the error. -/
def MissingPath.message (missing : MissingPath) : String :=
  "Source path does not exist: " ++ missing.path

namespace FileTree

/-- The sources at a path of something found there: a file whatever its extension, or
the files of a directory with one of the extensions. -/
def sourcesAt (path : String) (extensions : List String) (found : FileTree) : List String :=
  if found.isFile then [path]
  else (found.files path).filter (hasExtension · extensions)

/-- The sources that a path leads to. -/
def sources (tree : FileTree) (path : String) (extensions : List String) :
    Except MissingPath (List String) :=
  match tree.find path with
  | .ok found => .ok (found.sourcesAt path extensions)
  | .error _ => .error ⟨path⟩

end FileTree

end Lalr
