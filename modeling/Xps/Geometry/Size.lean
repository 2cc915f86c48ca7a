import Xps.Number.Single

/-!
# Sizes

The size of a page in page units, and sizes of images in whole pixels. A size has no zero side.
-/

namespace Xps

/-- A finite size with positive sides. -/
structure Size where
  width : Float32
  height : Float32
  width_finite : width.isFinite
  height_finite : height.isFinite
  width_pos : 0 < width
  height_pos : 0 < height

def Size.ofSides? (width height : Float32) : Option Size :=
  if h : width.isFinite ∧ height.isFinite ∧ 0 < width ∧ 0 < height then
    some ⟨width, height, h.1, h.2.1, h.2.2.1, h.2.2.2⟩
  else none

/-- A size in pixels. -/
structure PixelSize where
  width : Nat
  height : Nat
  width_pos : 0 < width
  height_pos : 0 < height
deriving DecidableEq

namespace PixelSize

def ofSides? (width height : Nat) : Option PixelSize :=
  if h : 0 < width ∧ 0 < height then some ⟨width, height, h.1, h.2⟩ else none

/-- `x * y / z`, rounded up. -/
def proportion (x y z : Nat) : Nat :=
  Single.ceil (Single.ofNat x * Single.ofNat y / Single.ofNat z)

/-- Keeps the proportions at a given width. -/
def scaleToWidth? (s : PixelSize) (width : Nat) : Option PixelSize :=
  ofSides? width (proportion width s.height s.width)

/-- Keeps the proportions at a given height. -/
def scaleToHeight? (s : PixelSize) (height : Nat) : Option PixelSize :=
  ofSides? (proportion height s.width s.height) height

/-- Keeps the proportions inside of a box. -/
def scaleTo? (s box : PixelSize) : Option PixelSize :=
  let width := proportion box.height s.width s.height
  if width < box.width then ofSides? width box.height
  else ofSides? box.width (proportion box.width s.height s.width)

def scaleBy? (s : PixelSize) (factor : Float32) : Option PixelSize :=
  ofSides? (Single.round (Single.ofNat s.width * factor))
    (Single.round (Single.ofNat s.height * factor))

end PixelSize

/-- The nearest size in pixels, at least one pixel each way. -/
def Size.toPixels (s : Size) : PixelSize :=
  ⟨max 1 (Single.round s.width), max 1 (Single.round s.height), by omega, by omega⟩

end Xps
