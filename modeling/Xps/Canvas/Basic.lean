import Xps.Geometry.Size
import Xps.Journal

/-!
# Canvases

A canvas is an image that is described and not computed: its size, the color it begins with, and
what was painted on it, in order.
-/

namespace Xps

structure Canvas where
  size : PixelSize
  background : Color
  calls : List PaintCall := []

namespace Canvas

/-- The bytes of a row have to be counted in 31 bits. -/
def fits (size : PixelSize) : Bool := 4 * size.width < 2 ^ 31

/-- An empty canvas, unless it is too wide. -/
def blank? (size : PixelSize) (background : Color) : Option Canvas :=
  if fits size then some { size, background } else none

/-- Paints what a journal says. -/
def paint (c : Canvas) (entries : List Entry) : Canvas :=
  { c with calls := c.calls ++ entries.filterMap Entry.paint? }

end Canvas

end Xps
