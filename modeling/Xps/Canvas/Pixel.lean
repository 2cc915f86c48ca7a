import Xps.Canvas.Clip
import Xps.Canvas.Edge

/-!
# Pixels of a canvas

The color of single pixels. The part of a pixel that an outline covers is measured at its center or,
for smooth edges, on a grid of four by four cells, and the solid fills are laid over each other in
order. Strokes and patterns are left out.
-/

namespace Xps.Canvas

/-! ## Coverage -/

/-- How many cells a side of a pixel has when edges are smooth. -/
def gridSide : Nat := 4

/-- What a row of cells adds to the coverage: a sixteenth of 256 for each cell, and one less for a
full last row, so that a full pixel is 255. -/
def rowCoverage (row hits : Nat) : Nat :=
  if row + 1 = gridSide ∧ hits = gridSide then 16 * hits - 1 else 16 * hits

/-- A solid fill, with the edges of its outline in cells. -/
structure Layer where
  color : Color
  rule : FillRule
  antiAlias : Bool
  /-- The first filled row. -/
  top : Int
  /-- The row behind the last filled one. -/
  bottom : Int
  edges : List Edge

namespace Layer

/-- The layer of a painting on a canvas. -/
def ofCall? (size : PixelSize) (call : PaintCall) : Option Layer := do
  match call.coverage, call.paint with
  | .fill rule, .solid color =>
    let outline ← call.outline.transform? call.frame.total
    let side := if call.antiAlias then gridSide else 1
    let (top, bottom) ← filledRows? size call.antiAlias side outline.bounds
    let edges := ((lines outline.steps).flatMap (clip size)).filterMap
      (Edge.ofLine? (Single.ofNat side))
    return { color, rule, antiAlias := call.antiAlias, top, bottom, edges }
  | _, _ => none

def covers (l : Layer) (column row : Nat) : Bool :=
  l.top ≤ row && row < l.bottom && isInside l.rule l.edges column row

/-- The part of a pixel that the layer covers, from 0 to 255. -/
def coverage (l : Layer) (x y : Nat) : Nat :=
  if l.antiAlias then
    ((List.range gridSide).map fun row =>
      rowCoverage row ((List.range gridSide).countP fun column =>
        l.covers (gridSide * x + column) (gridSide * y + row))).foldr (· + ·) 0
  else if l.covers x y then 255
  else 0

end Layer

/-! ## Laying colors over each other -/

/-- A channel as a byte, premultiplied by the alpha. -/
def channelByte (channel alpha : Float32) : Nat := Single.floor (channel * alpha * 255 + 0.5)

/-- Premultiplied bytes of a color: red, green, blue and alpha. -/
def colorBytes (c : Color) : List Nat :=
  [channelByte c.red c.alpha, channelByte c.green c.alpha, channelByte c.blue c.alpha,
    Single.floor (c.alpha * 255 + 0.5)]

/-- A product of bytes in units of 255, rounded up in units of 256. -/
def byteShare (n : Nat) : Nat := (n + 255) / 256

/-- Lays bytes of a color over those of a pixel. -/
def layOver (source pixel : List Nat) : List Nat :=
  let alpha := source.getLastD 0
  source.zipWith (fun s d => s + byteShare (d * (255 - alpha))) pixel

/-- Mixes the bytes of an opaque color and of a pixel. -/
def mix (coverage : Nat) (source pixel : List Nat) : List Nat :=
  source.zipWith (fun s d => byteShare (d * (255 - coverage) + s * coverage)) pixel

/-- Lays a color over the bytes of a pixel that it covers in part. -/
def lay (color : Color) (coverage : Nat) (pixel : List Nat) : List Nat :=
  let source := colorBytes color
  if coverage = 0 then pixel
  else if color.alpha == 1 then
    if coverage = 255 then source else mix coverage source pixel
  else if coverage = 255 then layOver source pixel
  else layOver (source.map fun s => byteShare (s * coverage)) pixel

/-! ## Pixels -/

/-- The layers of a canvas, the first one at the bottom. -/
def layers (c : Canvas) : List Layer := c.calls.filterMap (Layer.ofCall? c.size)

/-- The premultiplied bytes of a pixel below some layers. -/
def blend (background : Color) (layers : List Layer) (x y : Nat) : List Nat :=
  layers.foldl (fun pixel l => lay l.color (l.coverage x y) pixel) (colorBytes background)

/-- The premultiplied bytes of a pixel of the canvas. -/
def pixel (c : Canvas) (x y : Nat) : List Nat := blend c.background c.layers x y

/-- The pixel that is `y` rows and `x` pixels after the first, in the order of reading, if there are
so many: a pixel past the end of a row is in a later one. -/
def pixel? (c : Canvas) (x y : Nat) : Option (List Nat) :=
  let place := y * c.size.width + x
  if place < c.size.width * c.size.height then
    some (c.pixel (place % c.size.width) (place / c.size.width))
  else none

end Xps.Canvas
