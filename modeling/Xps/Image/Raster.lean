import Xps.Image.Jpeg
import Xps.Journal

/-!
# Raster images

A raster image is a PNG or JPEG file, told apart by its first bytes. It has a resolution, 96 dots
per inch if it does not say.
-/

namespace Xps

structure RasterImage where
  bitmap : Bitmap
  dotsX : Float32
  dotsY : Float32

inductive ImageFormat
  | png
  | jpeg
deriving DecidableEq

def ImageFormat.detect? (data : ByteArray) : Option ImageFormat :=
  if Bytes.startsWith data Png.signature then some png
  else if Bytes.startsWith data Jpeg.signature then some jpeg
  else none

namespace RasterImage

/-- Dots per inch of an image that does not say. -/
def defaultDots : Float32 := 96

/-- Meters of an inch. -/
def inch : Float32 := 0.0254

def ofPng? (data : ByteArray) : Option RasterImage := do
  let (bitmap, info) ← Png.decode? data
  match info.density with
  | some (x, y, true) =>
    if 0 < x ∧ 0 < y then return ⟨bitmap, Single.ofNat x * inch, Single.ofNat y * inch⟩
    else return ⟨bitmap, defaultDots, defaultDots⟩
  | _ => return ⟨bitmap, defaultDots, defaultDots⟩

def ofJpeg? (data : ByteArray) : Journaled (Option RasterImage) := do
  match Jpeg.decode? data with
  | some (.bitmap bitmap) =>
    let (x, y) := (Jpeg.density? data).getD (defaultDots, defaultDots)
    return some ⟨bitmap, x, y⟩
  | some (.unsupported pixelFormat) =>
    Journaled.note (.unsupportedJpeg pixelFormat)
    return none
  | none => return none

def decode (data : ByteArray) : Journaled (Option RasterImage) := do
  match ImageFormat.detect? data with
  | some .png => noteNone (ofPng? data) .brokenPng
  | some .jpeg => noteNone (← ofJpeg? data) .brokenJpeg
  | none => noteNone none .unknownImage

end RasterImage

end Xps
