import Xps.Canvas.Pixel
import Xps.Image.Checksum
import Xps.Image.Deflate
import Xps.Image.Png

/-!
# Canvases as PNG files

A canvas is written with eight bits for each channel, its colors apart from the alpha, and rows
without prediction.
-/

namespace Xps.Canvas

/-- A channel apart from the alpha that it was multiplied by. -/
def unscale (channel alpha : Nat) : UInt8 :=
  if alpha = 0 then 0 else UInt8.ofNat ((2 * 255 * channel + alpha) / (2 * alpha))

/-- The bytes of a pixel in a file. -/
def fileBytes (pixel : List Nat) : List UInt8 :=
  let alpha := pixel.getLastD 0
  pixel.dropLast.map (unscale · alpha) ++ [UInt8.ofNat alpha]

/-- A row: no prediction, and the pixels. -/
def fileRow (c : Canvas) (layers : List Layer) (y : Nat) : List UInt8 :=
  0 :: (List.range c.size.width).flatMap fun x => fileBytes (blend c.background layers x y)

def fileRows (c : Canvas) : ByteArray :=
  let layers := c.layers
  (List.range c.size.height).foldl (fun out y => out ++ ⟨(c.fileRow layers y).toArray⟩)
    ByteArray.empty

/-- A chunk: its length, its kind, its data and their checksum. -/
def chunk (kind : String) (data : ByteArray) : ByteArray :=
  let body := kind.toUTF8 ++ data
  Bytes.ofWord32 data.size ++ body ++ Bytes.ofWord32 (Checksum.crc32 body).toNat

/-- The size, eight bits for each channel, and colors with alpha. -/
def fileHeader (size : PixelSize) : ByteArray :=
  Bytes.ofWord32 size.width ++ Bytes.ofWord32 size.height ++ ⟨#[8, 6, 0, 0, 0]⟩

def toPng (c : Canvas) : ByteArray :=
  ⟨Png.signature.toArray⟩ ++ chunk "IHDR" (fileHeader c.size)
    ++ chunk "IDAT" (Deflate.container c.fileRows) ++ chunk "IEND" ByteArray.empty

end Xps.Canvas
