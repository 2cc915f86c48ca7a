import Xps.Image.Checksum
import Xps.Image.Png.TextChunk

/-!
# What the chunks of a PNG file say

A file is a list of chunks. Those before the image data give the size and form of the image, its
palette and transparency, its density, and the first frame of an animation, which takes the place of
the image. A chunk that is empty says nothing.
-/

namespace Xps.Png

def signature : List UInt8 := [0x89, 0x50, 0x4e, 0x47, 0x0d, 0x0a, 0x1a, 0x0a]

structure Chunk where
  kind : String
  data : ByteArray
  /-- The checksum that is written fits the data. -/
  intact : Bool

namespace Chunk

/-- A chunk whose name begins in upper case cannot be left out. -/
def isCritical (c : Chunk) : Bool := c.kind.toList.head?.any fun k => k.toNat / 32 % 2 == 0

/-- A wrong checksum matters only in a critical chunk. -/
def isBroken (c : Chunk) : Bool := !c.intact && c.isCritical

end Chunk

def kindAt? (file : ByteArray) (offset : Nat) : Option String := do
  return String.ofList ((← Bytes.slice? file (offset + 4) 4).toList.map fun b => .ofNat b.toNat)

def chunkAt? (file : ByteArray) (offset : Nat) : Option (Chunk × Nat) := do
  let length ← Bytes.word32? file offset
  let kind ← kindAt? file offset
  let data ← Bytes.slice? file (offset + 8) length
  let checksum ← Bytes.word32? file (offset + 8 + length)
  let checked ← Bytes.slice? file (offset + 4) (4 + length)
  return (⟨kind, data, (Checksum.crc32 checked).toNat == checksum⟩, offset + 12 + length)

inductive ColorType
  | gray
  | rgb
  | indexed
  | grayAlpha
  | rgbAlpha

namespace ColorType

def samples : ColorType → Nat
  | gray | indexed => 1
  | grayAlpha => 2
  | rgb => 3
  | rgbAlpha => 4

/-- The depths that a color type may have. -/
def depths : ColorType → List Nat
  | gray => [1, 2, 4, 8, 16]
  | indexed => [1, 2, 4, 8]
  | rgb | grayAlpha | rgbAlpha => [8, 16]

def ofCode? : Nat → Option ColorType
  | 0 => some gray
  | 2 => some rgb
  | 3 => some indexed
  | 4 => some grayAlpha
  | 6 => some rgbAlpha
  | _ => none

end ColorType

structure Header where
  width : Nat
  height : Nat
  depth : Nat
  color : ColorType
  interlaced : Bool

namespace Header

def ofData? (data : ByteArray) : Option Header := do
  let width ← Bytes.word32? data 0
  let height ← Bytes.word32? data 4
  let depth ← Bytes.byte? data 8
  let color ← ColorType.ofCode? (← Bytes.byte? data 9)
  let compression ← Bytes.byte? data 10
  let filter ← Bytes.byte? data 11
  let interlace ← Bytes.byte? data 12
  if 0 < width ∧ 0 < height ∧ depth ∈ color.depths ∧ compression = 0 ∧ filter = 0
      ∧ interlace ≤ 1 then
    return ⟨width, height, depth, color, interlace == 1⟩
  else none

/-- The bits of a pixel. -/
def pixelBits (h : Header) : Nat := h.depth * h.color.samples

end Header

structure Info where
  header : Header
  palette : Option ByteArray := none
  /-- The bytes of a color that is transparent, or the alphas of the palette. -/
  transparency : Option ByteArray := none
  /-- Pixels per unit in both directions. The unit may be a meter or unknown. -/
  density : Option (Nat × Nat × Bool) := none
  /-- The size of the frame that the image data holds in place of the whole image. -/
  frame : Option (Nat × Nat) := none
  /-- The number of the latest chunk of the animation. -/
  sequence : Option Nat := none
  /-- The kinds of the chunks so far. -/
  kinds : List String := []

namespace Info

def width (i : Info) : Nat := (i.frame.map Prod.fst).getD i.header.width

def height (i : Info) : Nat := (i.frame.map Prod.snd).getD i.header.height

/-- Shallow samples need the low byte of each channel only. -/
def narrow (i : Info) (data : ByteArray) (channels : Nat) : ByteArray :=
  if i.header.depth = 16 then data
  else ⟨((List.range channels).map fun k => data[2 * k + 1]?.getD 0).toArray⟩

/-- Transparency is a gray or color, or a list of alphas for a palette that came before. -/
def withTransparency? (i : Info) (data : ByteArray) : Option Info :=
  match i.header.color with
  | .gray => if 2 ≤ data.size then some { i with transparency := i.narrow data 1 } else none
  | .rgb => if 6 ≤ data.size then some { i with transparency := i.narrow data 3 } else none
  | .indexed => if i.palette.isSome then some { i with transparency := data } else none
  | .grayAlpha | .rgbAlpha => none

def withDensity? (i : Info) (data : ByteArray) : Option Info := do
  let x ← Bytes.word32? data 0
  let y ← Bytes.word32? data 4
  let unit ← Bytes.byte? data 8
  if unit ≤ 1 then return { i with density := some (x, y, unit == 1) } else none

/-- The number of the next chunk of the animation, which counts from zero. -/
def nextNumber (i : Info) : Nat := (i.sequence.map (· + 1)).getD 0

/-- A frame lies inside of the image. -/
def withFrame? (i : Info) (data : ByteArray) : Option Info := do
  let number ← Bytes.word32? data 0
  let width ← Bytes.word32? data 4
  let height ← Bytes.word32? data 8
  let x ← Bytes.word32? data 12
  let y ← Bytes.word32? data 16
  let disposal ← Bytes.byte? data 24
  let blending ← Bytes.byte? data 25
  if number = i.nextNumber ∧ disposal ≤ 2 ∧ blending ≤ 1 ∧ 0 < width ∧ 0 < height
      ∧ x + width ≤ i.header.width ∧ y + height ≤ i.header.height then
    return { i with frame := some (width, height), sequence := some number }
  else none

/-- The kinds of chunks that may come once only. -/
def uniqueKinds : List String := ["IHDR", "PLTE", "tRNS", "pHYs", "gAMA", "cHRM", "sRGB"]

/-- Takes in what a chunk says. -/
def learn? (i : Info) (kind : String) (data : ByteArray) : Option Info :=
  match kind with
  | "PLTE" => some { i with palette := data }
  | "tRNS" => i.withTransparency? data
  | "pHYs" => i.withDensity? data
  | "fcTL" => i.withFrame? data
  | "acTL" => if 8 ≤ data.size then some i else none
  | "gAMA" => if 4 ≤ data.size then some i else none
  | "cHRM" => if 32 ≤ data.size then some i else none
  | "sRGB" => if data[0]?.any (· ≤ 3) then some i else none
  | _ => if TextChunk.isValid kind data then some i else none

/-- Takes in a chunk that is not empty. The first one has to be the header. -/
def add? (i : Option Info) (c : Chunk) : Option Info :=
  match i with
  | none => if c.kind = "IHDR" then (Header.ofData? c.data).map ({ header := ·, kinds := [c.kind] })
    else none
  | some i =>
    if uniqueKinds.contains c.kind && i.kinds.contains c.kind then none
    else ({ i with kinds := c.kind :: i.kinds }).learn? c.kind c.data

end Info

/-- The kinds of chunks that hold image data: the whole image, or a frame of an animation. -/
def isImageData (kind : String) : Bool := kind == "IDAT" || kind == "fdAT"

/-- Reads the chunks up to the image data. Until there is a header, nothing else may come, and
nothing comes behind the end. -/
def infoFrom? (file : ByteArray) : Nat → Option Info → Nat → Option (Info × Nat)
  | 0, _, _ => none
  | steps + 1, i, offset => do
    let kind ← kindAt? file offset
    if (i.isNone && kind != "IHDR") || kind == "IEND" then none
    else if isImageData kind then return (← i, offset)
    else
      let (c, next) ← chunkAt? file offset
      if c.isBroken then none
      else if c.data.isEmpty then infoFrom? file steps i next
      else infoFrom? file steps (some (← Info.add? i c)) next

/-- The image data of a chunk and the number of the chunk. The data of a frame is numbered. -/
def Chunk.imageData? (c : Chunk) (last : Option Nat) : Option (ByteArray × Option Nat) :=
  if c.kind = "IDAT" then some (c.data, last)
  else do
    let number ← Bytes.word32? c.data 0
    if last.map (· + 1) = some number then some (c.data.extract 4 c.data.size, some number)
    else none

/-- Joins the chunks of a kind of image data. The kind of the chunk behind them has to be there. -/
def imageDataFrom? (file : ByteArray) (kind : String) :
    Nat → Option Nat → ByteArray → Nat → Option ByteArray
  | 0, _, _, _ => none
  | steps + 1, last, data, offset => do
    if (← kindAt? file offset) = kind then
      let (c, next) ← chunkAt? file offset
      let (more, last) ← c.imageData? last
      if c.isBroken then none else imageDataFrom? file kind steps last (data ++ more) next
    else return data

/-- What comes before the image data, and the data itself. -/
def contents? (file : ByteArray) : Option (Info × ByteArray) := do
  let (info, offset) ← infoFrom? file file.size none signature.length
  let kind ← kindAt? file offset
  let data ← imageDataFrom? file kind file.size info.sequence ByteArray.empty offset
  return (info, data)

end Xps.Png
