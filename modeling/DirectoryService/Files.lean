/-!
# Files

A path is a sequence of names, and each name leads from a directory to something in it. The empty
name and a single dot stay where they are, and two dots lead back, but only a directory has any of
these. A path that starts with a slash starts at the root, any other at the working directory.
-/

namespace DirectoryService

/-- What a path can lead to. -/
inductive FileNode where
  /-- A file with its octets. -/
  | file (contents : List UInt8)
  /-- A directory with the names in it. -/
  | directory (entries : List (String × FileNode))

/-- Why a path does not lead to what is wanted. -/
inductive FileFault where
  /-- No path contains a NUL. -/
  | nulInPath
  /-- Nothing has this name. -/
  | missing
  /-- Only a directory has names in it. -/
  | notDirectory
  /-- A directory has no octets. -/
  | isDirectory
  /-- A name or the whole path is too long. -/
  | nameTooLong
  /-- A fault in the words of whoever reports it. -/
  | reported (text : String)
deriving DecidableEq

/-- The wording of a fault. -/
def FileFault.message : FileFault → String
  | .nulInPath => "file name contained an unexpected NUL byte"
  | .missing => "No such file or directory (os error 2)"
  | .notDirectory => "Not a directory (os error 20)"
  | .isDirectory => "Is a directory (os error 21)"
  | .nameTooLong => "File name too long (os error 36)"
  | .reported text => text

/-- A place among the files. -/
structure FilePlace where
  /-- What is there. -/
  node : FileNode
  /-- The directories that lead to it, the nearest first. -/
  above : List FileNode

/-- The most octets of a name. -/
def FilePlace.longestName : Nat := 255

/-- The place that a name leads to. -/
def FilePlace.enter (place : FilePlace) (name : String) : Except FileFault FilePlace :=
  match place.node with
  | .file _ => .error .notDirectory
  | .directory entries =>
    if name = "" ∨ name = "." then .ok place
    else if name = ".." then
      match place.above with
      | [] => .ok place
      | nearest :: above => .ok ⟨nearest, above⟩
    else if longestName < name.utf8ByteSize then .error .nameTooLong
    else
      match entries.find? (·.1 == name) with
      | some (_, node) => .ok ⟨node, place.node :: place.above⟩
      | none => .error .missing

/-- All files, as one program sees them. -/
structure FileTree where
  /-- The directory that all paths start at. -/
  root : FileNode
  /-- The names that lead to the working directory. -/
  workingDirectory : List String

namespace FileTree

/-- The most octets of a path. -/
def longestPath : Nat := 4095

/-- The names of a path, from the root on. -/
def names (tree : FileTree) (path : String) : List String :=
  if path.startsWith "/" then path.splitOn "/" else tree.workingDirectory ++ path.splitOn "/"

/-- What a path leads to. -/
def find (tree : FileTree) (path : String) : Except FileFault FileNode := do
  if path.toList.contains '\x00' then throw .nulInPath
  if path = "" then throw .missing
  if longestPath < path.utf8ByteSize then throw .nameTooLong
  let place ← (tree.names path).foldlM FilePlace.enter ⟨tree.root, []⟩
  return place.node

/-- The octets of the file that a path leads to. -/
def read (tree : FileTree) (path : String) : Except FileFault (List UInt8) := do
  match ← tree.find path with
  | .file contents => return contents
  | .directory _ => throw .isDirectory

/-- Whether a path leads anywhere. -/
def contains (tree : FileTree) (path : String) : Bool :=
  match tree.find path with
  | .ok _ => true
  | .error _ => false

theorem contains_iff {tree : FileTree} {path : String} :
    tree.contains path = true ↔ ∃ node, tree.find path = .ok node := by
  unfold contains
  cases tree.find path <;> simp

/-- What can be read is there. -/
theorem contains_of_read {tree : FileTree} {path : String} {contents : List UInt8}
    (h : tree.read path = .ok contents) : tree.contains path = true := by
  rw [contains_iff]
  cases found : tree.find path with
  | ok node => exact ⟨node, rfl⟩
  | error fault => simp [read, found, bind, Except.bind] at h

end FileTree

end DirectoryService
