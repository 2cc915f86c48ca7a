import Xps.Font.GlyphPoints
import Xps.Font.GlyphProgram

/-!
# Glyph outlines

The outlines of a face are kept as points or as programs.
-/

namespace Xps.GlyphOutline

/-- The whole part of a coordinate has to fit into 16 bits. -/
def fits (p : Point) : Bool :=
  let fits16 (x : Float32) : Bool := Single.truncate x == (Single.truncate x).bmod 65536
  fits16 p.x && fits16 p.y

/-- Draws the steps of a glyph, which have to have points. -/
def ofSteps? (steps : List OutlineStep) : Option Outline :=
  let points := steps.flatMap OutlineStep.points
  if points.isEmpty ∨ !points.all fits then none else (steps.foldl Pen.trace {}).finish?

/-- The outline of a glyph of a face. Points are preferred to programs. -/
def ofFace? (f : Face) (glyph : Nat) : Option Outline := do
  match GlyphPoints.GlyphTables.ofFace? f with
  | some tables => ofSteps? (← tables.steps? GlyphPoints.maxDepth {} (← tables.data? glyph))
  | none =>
    let font ← CompactFont.ofTable? (← f.tables.get? "CFF ")
    ofSteps? (← GlyphProgram.steps? font glyph)

end Xps.GlyphOutline
