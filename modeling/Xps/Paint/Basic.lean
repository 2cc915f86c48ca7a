import Xps.Outline

/-!
# Paint

Colors, images, the brushes of a page, and the calls that put an outline on a canvas.
-/

namespace Xps

/-- A color with channels from 0 to 1, not premultiplied by the alpha. -/
structure Color where
  red : Float32
  green : Float32
  blue : Float32
  alpha : Float32
deriving Inhabited

namespace Color

def ofBytes (red green blue alpha : Nat) : Color :=
  ⟨Single.ofNat red / 255, Single.ofNat green / 255, Single.ofNat blue / 255,
    Single.ofNat alpha / 255⟩

def white : Color := ⟨1, 1, 1, 1⟩

def withOpacity (c : Color) (opacity : Float32) : Color :=
  { c with alpha := Single.clamp 0 1 (c.alpha * Single.clamp 0 1 opacity) }

end Color

/-- An image of premultiplied pixels: four bytes each, red, green, blue and alpha. -/
structure Bitmap where
  width : Nat
  height : Nat
  pixels : ByteArray

/-- A resolved fill or stroke. An image is repeated over the plane. -/
inductive Brush
  | empty
  | solid (color : Color)
  | image (bitmap : Bitmap) (transform : Transform) (opacity : Float32)

namespace Brush

def isEmpty : Brush → Bool
  | empty => true
  | _ => false

end Brush

/-- What is put on the canvas inside of an outline. -/
inductive Paint
  | solid (color : Color)
  | pattern (bitmap : Bitmap) (transform : Transform) (opacity : Float32)

/-- The paint of a brush for an element of some opacity. -/
def Brush.paint? (opacity : Float32) : Brush → Option Paint
  | empty => none
  | solid color => some (.solid (color.withOpacity opacity))
  | image bitmap transform brushOpacity =>
    some (.pattern bitmap transform (Single.clamp 0 1 (brushOpacity * opacity)))

inductive LineJoin
  | miter
  | round
  | bevel

inductive LineCap
  | butt
  | round
  | square

structure Stroke where
  width : Float32
  miterLimit : Float32
  join : LineJoin
  cap : LineCap

/-- Which part of the plane an outline covers: its inside or a line along it. -/
inductive Coverage
  | fill (rule : FillRule)
  | stroke (stroke : Stroke)

/-- One painting of an outline. The frame maps the outline to the canvas. -/
structure PaintCall where
  outline : Outline
  coverage : Coverage
  paint : Paint
  frame : Frame
  antiAlias : Bool

end Xps
