import BucketPlanner.Command.Error

/-!
# Files and paths

A tree of folders and files, and what reading a path in it yields. A path is taken one name after
the other: an empty name and a dot stay in the folder, two dots go to the folder above, and any
other name is looked up. Names and paths have a greatest length in bytes, and only folders have
anything below them.
-/

namespace BucketPlanner

/-- A file with what reading it yields, or a folder of named trees. -/
inductive FileTree
  | file (content : Except ReadFault String)
  | folder (entries : List (String × FileTree))

/-- A folder in which paths start, with the folders above it, the nearest first; the last of them is
the root. -/
structure WorkingFolder where
  here : FileTree
  above : List FileTree

namespace FileTree

/-- The most bytes that a name has. -/
def nameLimit : Nat := 255

/-- The first number of bytes that is too large for a path. -/
def pathLimit : Nat := 4096

/-- The tree under a name. -/
def entry? (name : String) : List (String × FileTree) → Option FileTree
  | [] => none
  | (n, t) :: rest => if n = name then some t else entry? name rest

/-- Goes from a tree, which has the given folders above it, along names. -/
def walk : List FileTree → FileTree → List String → Except ReadFault FileTree
  | _, here, [] => .ok here
  | _, file _, _ :: _ => .error .notDirectory
  | above, folder entries, name :: names =>
    if name = "" ∨ name = "." then walk above (folder entries) names
    else if name = ".." then
      match above with
      | [] => walk [] (folder entries) names
      | parent :: above => walk above parent names
    else if nameLimit < name.utf8ByteSize then .error .nameTooLong
    else match entry? name entries with
      | none => .error .notFound
      | some t => walk (folder entries :: above) t names

/-- Reads a file; a folder cannot be read. -/
def read : FileTree → Except ReadFault String
  | file content => content
  | folder _ => .error .isDirectory

/-- The tree that holds one file, at the end of the names. -/
def single (content : Except ReadFault String) : List String → FileTree
  | [] => file content
  | name :: names => folder [(name, single content names)]

end FileTree

namespace WorkingFolder

/-- The outermost folder. -/
def root (w : WorkingFolder) : FileTree := w.above.getLast?.getD w.here

/-- Reads the file at a path, from the root when the path begins with a slash. -/
def read (w : WorkingFolder) (path : String) : Except ReadFault String :=
  if FileTree.pathLimit ≤ path.utf8ByteSize then .error .nameTooLong
  else do
    let names := path.splitOn "/"
    let tree ← if path.startsWith "/" then FileTree.walk [] w.root names
      else FileTree.walk w.above w.here names
    tree.read

end WorkingFolder

end BucketPlanner
