import Xps.Archive.Basic
import Xps.Canvas.Basic

/-!
# Consoles

What a run needs from the world around it: a directory to read, two streams of lines, a clock, and a
place for the image.
-/

namespace Xps.Cli

/-- The effects of a run. -/
class Console (m : Type → Type) where
  /-- The package in a directory. -/
  archive : String → m Archive
  /-- Prints lines of results. -/
  print : String → m Unit
  /-- Prints lines of diagnostics. -/
  complain : String → m Unit
  /-- Does some work and prints under a name how long it took. -/
  timed : {α : Type} → String → (Unit → m α) → m α
  /-- Writes an image to a file. The answer is the reason why that failed. -/
  save : String → Canvas → m (Option String)

end Xps.Cli
