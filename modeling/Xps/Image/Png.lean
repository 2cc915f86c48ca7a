import Xps.Image.Inflate
import Xps.Image.Png.Info
import Xps.Paint.Basic

/-!
# PNG images

Reads an image with all of its forms: gray, colored or with a palette, at any depth, with
transparency, filtered, and interlaced. Deep samples lose their low byte.
-/

namespace Xps.Png

/-! ## Rows -/

/-- One of the images that an interlaced image is made of: its first pixel and its steps. -/
structure Pass where
  x : Nat
  y : Nat
  stepX : Nat
  stepY : Nat

def passes (interlaced : Bool) : List Pass :=
  if interlaced then
    [⟨0, 0, 8, 8⟩, ⟨4, 0, 8, 8⟩, ⟨0, 4, 4, 8⟩, ⟨2, 0, 4, 4⟩, ⟨0, 2, 2, 4⟩, ⟨1, 0, 2, 2⟩,
      ⟨0, 1, 1, 2⟩]
  else [⟨0, 0, 1, 1⟩]

def Pass.width (p : Pass) (i : Info) : Nat := (i.width - p.x + p.stepX - 1) / p.stepX

def Pass.height (p : Pass) (i : Info) : Nat := (i.height - p.y + p.stepY - 1) / p.stepY

/-- The predicted value of a byte from its left, upper and upper left neighbours. -/
def paeth (a b c : Int) : Int :=
  let p := a + b - c
  let da := (p - a).natAbs
  let db := (p - b).natAbs
  let dc := (p - c).natAbs
  if da ≤ db ∧ da ≤ dc then a else if db ≤ dc then b else c

def predict? (filter : Nat) (left up corner : Nat) : Option Nat :=
  match filter with
  | 0 => some 0
  | 1 => some left
  | 2 => some up
  | 3 => some ((left + up) / 2)
  | 4 => some (paeth left up corner).toNat
  | _ => none

/-- Adds the prediction to each byte of a row. `distance` is the size of a pixel. -/
def unfilter? (filter distance : Nat) (previous row : ByteArray) : Option ByteArray :=
  row.data.foldlM (fun out byte => do
    let i := out.size
    let at? (bytes : ByteArray) : Nat :=
      if distance ≤ i then (Bytes.byte? bytes (i - distance)).getD 0 else 0
    let predicted ← predict? filter (at? out) ((Bytes.byte? previous i).getD 0) (at? previous)
    return out.push (byte + UInt8.ofNat predicted)) ByteArray.empty

/-- Splits rows off the data and undoes their filters. -/
def rows? (distance length : Nat) :
    Nat → ByteArray → ByteArray → Nat → Option (List ByteArray × Nat)
  | 0, _, _, offset => some ([], offset)
  | n + 1, previous, data, offset => do
    let filter ← Bytes.byte? data offset
    let row ← unfilter? filter distance previous (← Bytes.slice? data (offset + 1) length)
    let (rows, offset) ← rows? distance length n row data (offset + 1 + length)
    return (row :: rows, offset)

/-! ## Pixels -/

/-- The sample of an index in a row. -/
def sample (depth : Nat) (row : ByteArray) (index : Nat) : Nat :=
  if depth = 16 then (Bytes.word16? row (2 * index)).getD 0
  else
    let bit := depth * index
    let byte := (Bytes.byte? row (bit / 8)).getD 0
    byte / 2 ^ (8 - depth - bit % 8) % 2 ^ depth

/-- A color of four bytes that is not premultiplied. -/
structure Pixel where
  red : Nat
  green : Nat
  blue : Nat
  alpha : Nat

/-- Multiplies by the alpha and rounds to nearest. There are no ties. -/
def premultiply (channel alpha : Nat) : Nat := (2 * channel * alpha + 255) / 510

def Pixel.bytes (p : Pixel) : List UInt8 :=
  [premultiply p.red p.alpha, premultiply p.green p.alpha, premultiply p.blue p.alpha, p.alpha].map
    UInt8.ofNat

/-- A sample as a byte. Shallow ones are spread over the range. -/
def Info.toByte (i : Info) (s : Nat) : Nat :=
  if i.header.depth = 16 then s / 256 else s * 255 / (2 ^ i.header.depth - 1)

/-- The bytes of samples. A shallow sample is a byte. -/
def Info.sampleBytes (i : Info) (samples : List Nat) : List UInt8 :=
  if i.header.depth = 16 then samples.flatMap fun s => [UInt8.ofNat (s / 256), UInt8.ofNat s]
  else samples.map UInt8.ofNat

/-- The alpha of a gray or color. All bytes of the transparent one have to fit. -/
def Info.alphaOf (i : Info) (samples : List Nat) : Nat :=
  if i.transparency.map (·.toList) = some (i.sampleBytes samples) then 0 else 255

/-- The alphas of the palette. A list with more alphas than entries does not count. -/
def Info.alphas (i : Info) : ByteArray :=
  let alphas := i.transparency.getD ByteArray.empty
  if 3 * alphas.size ≤ (i.palette.getD ByteArray.empty).size then alphas else ByteArray.empty

/-- An entry of the palette. One that is not there is black. -/
def Info.paletteColor (i : Info) (index : Nat) : Pixel :=
  let palette := i.palette.getD ByteArray.empty
  let channel (k : Nat) : Nat := (Bytes.byte? palette (3 * index + k)).getD 0
  let alpha := (Bytes.byte? i.alphas index).getD 255
  if 3 * index + 2 < palette.size then ⟨channel 0, channel 1, channel 2, alpha⟩
  else ⟨0, 0, 0, alpha⟩

/-- The pixel of an index in a row. -/
def Info.pixel (i : Info) (row : ByteArray) (index : Nat) : Pixel :=
  let s (k : Nat) : Nat := sample i.header.depth row (i.header.color.samples * index + k)
  let byte (k : Nat) : Nat := i.toByte (s k)
  match i.header.color with
  | .gray => ⟨byte 0, byte 0, byte 0, i.alphaOf [s 0]⟩
  | .rgb => ⟨byte 0, byte 1, byte 2, i.alphaOf [s 0, s 1, s 2]⟩
  | .indexed => i.paletteColor (s 0)
  | .grayAlpha => ⟨byte 0, byte 0, byte 0, byte 1⟩
  | .rgbAlpha => ⟨byte 0, byte 1, byte 2, byte 3⟩

def setPixel (stride : Nat) (pixels : ByteArray) (x y : Nat) (p : Pixel) : ByteArray :=
  p.bytes.zipIdx.foldl (fun pixels (byte, k) => pixels.set! (4 * (stride * y + x) + k) byte) pixels

/-- The pixels from the beginning of one row to the next. A frame of an interlaced image is put
together in rows of the whole image, and then taken from there in its own rows. -/
def Info.stride (i : Info) : Nat := if i.header.interlaced then i.header.width else i.width

/-- The pixels before any row is drawn. They are seen where the rows of a frame do not reach. -/
def Info.blank (i : Info) : ByteArray :=
  let isOpaque : Bool :=
    match i.header.color with
    | .gray | .rgb | .indexed => i.transparency.isNone
    | .grayAlpha | .rgbAlpha => false
  let pixel : Pixel := ⟨0, 0, 0, if isOpaque then 255 else 0⟩
  ⟨((List.replicate (i.stride * i.height) pixel.bytes).flatten).toArray⟩

/-- Puts the pixels of a row in their places. -/
def Info.drawRow (i : Info) (p : Pass) (pixels : ByteArray) (row : ByteArray) (index : Nat) :
    ByteArray :=
  let y := p.y + p.stepY * index
  (List.range (p.width i)).foldl (fun pixels k =>
    setPixel i.stride pixels (p.x + p.stepX * k) y (i.pixel row k)) pixels

/-- The bytes of a row in a pass, without its filter. -/
def Pass.rowLength (p : Pass) (i : Info) : Nat := (i.header.pixelBits * p.width i + 7) / 8

/-- The bytes that all rows take. A pass without pixels has no rows. -/
def Info.dataLength (i : Info) : Nat :=
  ((passes i.header.interlaced).map fun p =>
    if p.width i = 0 then 0 else p.height i * (1 + p.rowLength i)).foldr (· + ·) 0

/-- Draws all rows of a pass. -/
def Info.drawPass? (i : Info) (data : ByteArray) (p : Pass) (state : ByteArray × Nat) :
    Option (ByteArray × Nat) := do
  let (pixels, offset) := state
  if p.width i = 0 then return state
  else
    let (rows, offset) ←
      rows? ((i.header.pixelBits + 7) / 8) (p.rowLength i) (p.height i) ByteArray.empty data offset
    return (rows.zipIdx.foldl (fun pixels (row, k) => i.drawRow p pixels row k) pixels, offset)

/-- The longest row of an image in pixels. -/
def maxWidth : Nat := (2 ^ 31 - 1) / 4

/-- The image, and what its chunks say. -/
def decode? (file : ByteArray) : Option (Bitmap × Info) := do
  let (info, compressed) ← contents? file
  if info.palette.isNone ∧ info.header.color matches .indexed then none
  else if maxWidth < info.width then none
  else
    let data ← Inflate.container? compressed
    if data.size < info.dataLength then none
    else
      let (pixels, _) ←
        (passes info.header.interlaced).foldlM (fun s p => info.drawPass? data p s) (info.blank, 0)
      return (⟨info.width, info.height, pixels.extract 0 (4 * info.width * info.height)⟩, info)

end Xps.Png
