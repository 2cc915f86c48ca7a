import Xps.Archive.FileTree
import Xps.Canvas.PngFile
import Xps.Cli.Run

/-!
# The command line

Runs with files, the standard streams and the clock.
-/

namespace Xps.Cli

/-- The directories and files below a path. -/
partial def readTree (path : String) : IO FileTree := do
  let place := System.mkFilePath [path]
  if ← place.isDir then
    let entries ← place.readDir
    let trees ← entries.toList.mapM fun e => return (e.fileName, ← readTree e.path.toString)
    return .directory trees
  else return .file (← IO.FS.readBinFile place)

def readArchive (directory : String) : IO Archive := do
  let root := if directory.isEmpty then "." else directory
  let tree ← try readTree root catch _ => pure FileTree.empty
  return tree.archive []

/-- A time in milliseconds with two decimals. -/
def milliseconds (nanoseconds : Nat) : String :=
  let hundredths := (nanoseconds + 5000) / 10000
  let decimals := toString (hundredths % 100)
  s!"{hundredths / 100}." ++ (if decimals.length < 2 then "0" else "") ++ decimals ++ "ms"

def savePng (path : String) (canvas : Canvas) : IO (Option String) := do
  try
    IO.FS.writeBinFile (System.mkFilePath [path]) canvas.toPng
    return none
  catch
    | .noFileOrDirectory .. => return some FileTree.WriteFault.missing.message
    | e => return some (toString e)

instance : Console IO where
  archive := readArchive
  print text := IO.println text
  complain line := IO.eprintln line
  timed name work := do
    let start ← IO.monoNanosNow
    let a ← work ()
    let stop ← IO.monoNanosNow
    IO.println (name ++ ": " ++ milliseconds (stop - start))
    return a
  save := savePng

end Xps.Cli

def main (args : List String) : IO UInt32 :=
  Xps.Cli.run args
