import Xps.Image.Jpeg.Header
import Xps.Image.Png

/-!
# Colors

What the components of an image stand for, and the pixels that their samples make.
-/

namespace Xps.Jpeg

inductive ColorModel
  | gray
  | rgb
  | yCbCr
  /-- Four inks, which no bitmap has. -/
  | inks

/-- How the components of an image are to be read, which their ids say first of all. -/
def Tables.colorModel? (t : Tables) (frame : Frame) : Option ColorModel :=
  match frame.components.map Component.id with
  | [_] => some .gray
  | [1, 2, 3] => some .yCbCr
  | [82, 71, 66] => some .rgb
  | [1, 34, 35] | [114, 103, 98] => none
  | [_, _, _] =>
    if t.isJfif then some .yCbCr
    else
      match t.adobeTransform with
      | some 0 => some .rgb
      | some 2 => none
      | _ => some .yCbCr
  | [_, _, _, _] => if t.adobeTransform = some 1 then none else some .inks
  | _ => none

def toByte (x : Int) : Nat := Nat.min 255 (x.toNat)

/-- The conversion factors with twenty binary places: 1.402, 0.34414, 0.71414 and 1.772. -/
def redFactor : Int := 1470104

def blueGreenFactor : Int := 360857

def redGreenFactor : Int := 748830

def blueFactor : Int := 1858077

def ofYCbCr (y cb cr : Nat) : Png.Pixel :=
  let y : Int := (y : Int) * 2 ^ 20 + 2 ^ 19
  let cb : Int := (cb : Int) - 128
  let cr : Int := (cr : Int) - 128
  { red := toByte ((y + redFactor * cr).fdiv (2 ^ 20))
    green := toByte ((y - blueGreenFactor * cb - redGreenFactor * cr).fdiv (2 ^ 20))
    blue := toByte ((y + blueFactor * cb).fdiv (2 ^ 20))
    alpha := 255 }

def pixel : ColorModel → List Nat → Png.Pixel
  | .gray, [y] => ⟨y, y, y, 255⟩
  | .rgb, [r, g, b] => ⟨r, g, b, 255⟩
  | .yCbCr, [y, cb, cr] => ofYCbCr y cb cr
  | _, _ => ⟨0, 0, 0, 255⟩

end Xps.Jpeg
