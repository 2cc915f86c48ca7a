import Xps.Archive.Basic

/-!
# File trees

A tree of directories and files with exact names and without links. A path is walked one segment at
a time: a point stays where it is, two points go up, and nothing is known above the root.
-/

namespace Xps

inductive FileTree
  | file (content : ByteArray)
  | directory (entries : List (String × FileTree))

namespace FileTree

def empty : FileTree := directory []

/-- The segments of a path. Repeated slashes count as one. -/
def segments (path : String) : List String :=
  ((PartName.split path.toList).filter fun s => !s.isEmpty).map String.ofList

/-- Walks on from the last of the trees that were passed, the root last. -/
def walk : List FileTree → List String → Option FileTree
  | trail, [] => trail.head?
  | directory entries :: above, segment :: path =>
    if segment = "." then walk (directory entries :: above) path
    else if segment = ".." then walk above path
    else
      match entries.lookup segment with
      | some tree => walk (tree :: directory entries :: above) path
      | none => none
  | _, _ :: _ => none

/-- The path from the root to where a path leads. There are no links, so names alone tell it. -/
def straighten (path : List String) : List String :=
  path.foldl (fun straight segment =>
    if segment = "." then straight
    else if segment = ".." then straight.dropLast
    else straight ++ [segment]) []

/-- The content of a file. -/
def find? (tree : FileTree) (path : List String) : Option ByteArray :=
  match walk [tree] path with
  | some (file content) => some content
  | _ => none

/-- Puts an entry in the place of the one of the same name, or at the end. -/
def replace (name : String) (tree : FileTree) (entries : List (String × FileTree)) :
    List (String × FileTree) :=
  if (entries.lookup name).isSome then
    entries.map fun entry => if entry.1 = name then (name, tree) else entry
  else entries ++ [(name, tree)]

/-- Writes a file and makes the directories that lead to it. -/
def insert : FileTree → List String → ByteArray → FileTree
  | _, [], content => file content
  | file _, segment :: path, content => directory [(segment, insert empty path content)]
  | directory entries, segment :: path, content =>
    let tree := (entries.lookup segment).getD empty
    directory (replace segment (insert tree path content) entries)
termination_by _ path _ => path.length

/-- Why a file cannot be written. -/
inductive WriteFault
  | missing
  | notDirectory
  | isDirectory

def WriteFault.message : WriteFault → String
  | missing => "No such file or directory (os error 2)"
  | notDirectory => "Not a directory (os error 20)"
  | isDirectory => "Is a directory (os error 21)"

/-- The fault of writing a file at a path, if it cannot be done. A path that ends in a slash names a
directory. -/
def writeFault? (tree : FileTree) (path : String) : Option WriteFault :=
  match segments path with
  | [] => some .missing
  | steps =>
    match walk [tree] steps.dropLast, walk [tree] steps with
    | none, _ => some .missing
    | some (file _), _ => some .notDirectory
    | some (directory _), some (directory _) => some .isDirectory
    | some (directory _), _ => if path.endsWith "/" then some .isDirectory else none

/-- The package in a directory of the tree. -/
def archive (tree : FileTree) (root : List String) : Archive :=
  ⟨fun name => tree.find? (root ++ segments name)⟩

end FileTree

end Xps
