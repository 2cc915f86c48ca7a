import Xps.Outline

/-!
# Font providers

A provider takes font files and answers for the fonts in them: names, metrics, advances, glyphs and
outlines. All measures are in font units, with the vertical axis pointing up.
-/

namespace Xps

/-- A font that a provider has accepted. -/
structure FontId where
  index : Nat
deriving DecidableEq

/-- A font in some size. -/
structure Font where
  id : FontId
  size : Float32

structure FontMetrics where
  unitsPerEm : UInt16
  ascender : Int16
  descender : Int16

namespace FontMetrics

/-- From font units to page units. -/
def scale (m : FontMetrics) (size : Float32) : Float32 :=
  size / Single.ofNat m.unitsPerEm.toNat

/-- The height of a line. -/
def height (m : FontMetrics) (size : Float32) : Float32 :=
  (Single.ofInt m.ascender.toInt - Single.ofInt m.descender.toInt) * m.scale size

end FontMetrics

structure ShapedGlyph where
  glyph : UInt16
  /-- The byte of the text where the characters of the glyph begin. -/
  cluster : Nat
  advance : Int32
  xOffset : Int32
  yOffset : Int32

class FontProvider (σ : Type) where
  /-- Takes a font file, if it is one. -/
  load : σ → ByteArray → Option FontId × σ
  familyName : σ → FontId → Option String
  metrics : σ → FontId → Option FontMetrics
  advance : σ → FontId → Char → Option Float32
  /-- The glyphs of a text from left to right. -/
  shape : σ → FontId → String → List ShapedGlyph
  outline : σ → FontId → UInt16 → Option Outline

end Xps
