import Xps.Archive.FileTree
import Xps.Cli.Console

/-!
# Transcripts

A run over a tree of files that is written down: the lines of both streams and the images. The clock
is not read.
-/

namespace Xps.Cli

/-- A line of results: a text, or the name of work whose time was shown. -/
inductive OutputLine
  | text (text : String)
  | time (name : String)

structure Transcript where
  output : List OutputLine := []
  diagnostics : List String := []
  /-- The images with their places in the tree. -/
  images : List (List String × Canvas) := []

namespace Transcript

/-- A run from the root of a tree. Nothing is known of what lies outside of it. -/
abbrev Recorded := ReaderT FileTree (StateM Transcript)

def write (line : OutputLine) : Recorded Unit :=
  modify fun t => { t with output := t.output ++ [line] }

/-- A path that starts at the root of all files and not of the tree. -/
def isAbsolute (path : String) : Bool := path.startsWith "/"

/-- The latest image at a path of the tree. -/
def image? (t : Transcript) (path : String) : Option Canvas :=
  t.images.reverse.lookup (FileTree.straighten (FileTree.segments path))

def findArchive (directory : String) : Recorded Archive := do
  if isAbsolute directory then return FileTree.empty.archive []
  return (← read).archive (FileTree.segments directory)

def saveImage (path : String) (canvas : Canvas) : Recorded (Option String) := do
  let tree ← read
  let fault := if isAbsolute path then some FileTree.WriteFault.missing else tree.writeFault? path
  match fault with
  | some fault => return some fault.message
  | none =>
    let place := FileTree.straighten (FileTree.segments path)
    modify fun t => { t with images := t.images ++ [(place, canvas)] }
    return none

instance : Console Recorded where
  archive := findArchive
  print text := write (.text text)
  complain line := modify fun t => { t with diagnostics := t.diagnostics ++ [line] }
  timed name work := do
    let a ← work ()
    write (.time name)
    return a
  save := saveImage

end Transcript

end Xps.Cli
