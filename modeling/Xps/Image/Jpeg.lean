import Xps.Image.Jpeg.Color
import Xps.Image.Jpeg.Scan

/-!
# JPEG images

Reads images whose components come whole, in one scan each or in common scans, or in bands that are
refined step by step. What follows a scan may be any segment, another scan among them, up to the end
of the image.
-/

namespace Xps.Jpeg

def signature : List UInt8 := [0xff, 0xd8, 0xff]

/-- The code of the next marker, and the place behind it. -/
def nextMarker? (file : ByteArray) : Nat → Nat → Option (Nat × Nat)
  | 0, _ => none
  | steps + 1, offset => do
    let first ← Bytes.byte? file offset
    let second ← Bytes.byte? file (offset + 1)
    if first = 0xff ∧ second ≠ 0xff ∧ second ≠ 0 then return (second, offset + 2)
    else nextMarker? file steps (offset + 1)

/-- A restart marker stands inside of the entropy coded data. -/
def isRestart (marker : Nat) : Bool := 0xd0 ≤ marker && marker ≤ 0xd7

/-- How far a file has been read. -/
structure FileState where
  offset : Nat
  tables : Tables := {}
  /-- The coefficients so far of the components, by their numbers. -/
  grids : List (Nat × Grid) := []
  /-- The components and the indexes of their coefficients of which no bits are left out. -/
  settled : List (Nat × Nat) := []
  /-- The planes of the components that are complete, by their numbers. -/
  planes : List (Nat × Plane) := []
  /-- A marker that was met behind a scan. -/
  pending : Option Nat := none
  /-- A scan came right before. -/
  afterScan : Bool := false

namespace FileState

/-- Goes on to the next marker. -/
def marker? (file : ByteArray) (s : FileState) : Option (Nat × FileState) :=
  match s.pending with
  | some marker => some (marker, { s with pending := none })
  | none =>
    (nextMarker? file file.size s.offset).map fun (marker, offset) => (marker, { s with offset })

/-- The first marker behind a scan that is not a restart, if the scan met one. -/
def dropRestarts (file : ByteArray) : Nat → Option Nat → Nat → Option Nat × Nat
  | steps + 1, some marker, offset =>
    if isRestart marker then
      match nextMarker? file file.size offset with
      | some (marker, offset) => dropRestarts file steps (some marker) offset
      | none => (none, file.size)
    else (some marker, offset)
  | _, marker, offset => (marker, offset)

/-- Keeps the coefficients of a channel. Once all of them have all of their bits, they make its
plane, and no later scan changes it. -/
def keep (frame : Frame) (band : Band) (s : FileState) (channel : Channel) (grid : Grid) :
    FileState :=
  let index := channel.index
  let settled :=
    if band.low = 0 then s.settled ++ band.indexes.map (index, ·) else s.settled
  let isComplete := (List.range 64).all fun k => settled.contains (index, k)
  let planes :=
    if isComplete && (s.planes.lookup index).isNone then
      s.planes ++ [(index, Plane.ofGrid frame channel.component channel.factors grid)]
    else s.planes
  { s with grids := (index, grid) :: s.grids, settled, planes }

/-- The coefficients so far of a component. -/
def grid (frame : Frame) (s : FileState) (index : Nat) (c : Component) : Grid :=
  (s.grids.lookup index).getD (Grid.blank frame c)

/-- Reads a scan behind its head. -/
def scan? (file : ByteArray) (s : FileState) (head : ByteArray) : Option FileState := do
  let frame ← s.tables.frame
  let (band, channels) ← s.tables.channels? frame head
  let before := channels.map fun c => s.grid frame c.index c.component
  let (grids, stream) ←
    Jpeg.scan? s.tables.restartInterval frame band channels before file s.offset
  let (marker, stream) ← stream.takeMarker?
  let (pending, offset) := dropRestarts file file.size marker stream.offset
  let s := (channels.zip grids).foldl (fun s (c, g) => s.keep frame band c g) s
  return { s with offset, pending, afterScan := true }

/-- Reads the segment of a marker. -/
def segment? (file : ByteArray) (s : FileState) (marker : Nat) : Option FileState :=
  if isRestart marker then if s.afterScan then some { s with afterScan := false } else none
  else do
    let length ← Bytes.word16? file s.offset
    let data ← Bytes.slice? file (s.offset + 2) (length - 2)
    let s := { s with offset := s.offset + length }
    if length < 2 then none
    else if marker = 0xda then s.scan? file data
    else return { s with tables := ← s.tables.add? marker data, afterScan := false }

/-- Reads segments up to the end of the image. -/
def segments? (file : ByteArray) : Nat → FileState → Option FileState
  | 0, _ => none
  | steps + 1, s => do
    let (marker, s) ← s.marker? file
    if marker = 0xd9 then return s else segments? file steps (← s.segment? file marker)

/-- The plane of a component. One that is not complete is shown as far as it has come, if the frame
is progressive and there has been any scan. -/
def plane? (frame : Frame) (s : FileState) (index : Nat) (c : Component) : Option Plane :=
  (s.planes.lookup index).or
    (if frame.process = .progressive ∧ !s.grids.isEmpty then
      (s.tables.factors.lookup c.quantization).map fun factors =>
        Plane.ofGrid frame c factors (s.grid frame index c)
    else none)

end FileState

/-- A decoded image, or the name of the pixels that have no place in a bitmap. -/
inductive Decoded
  | bitmap (bitmap : Bitmap)
  | unsupported (pixelFormat : String)

/-- The sample of each component at a pixel. -/
abbrev Sampler := Nat → Nat → List Nat

/-- The samples of a frame. Each component has a plane. -/
def sampler? (frame : Frame) (s : FileState) : Option Sampler := do
  let sources ← frame.components.zipIdx.mapM fun (c, k) => do
    return (← Spreading.ofComponent? frame c, frame.columns c, frame.rows c, ← s.plane? frame k c)
  return fun x y => sources.map fun (spreading, columns, rows, plane) =>
    spreading.sample columns rows plane x y

def decode? (file : ByteArray) : Option Decoded := do
  let s ← FileState.segments? file file.size { offset := 2 }
  let frame ← s.tables.frame
  let samples ← sampler? frame s
  match ← s.tables.colorModel? frame with
  | .inks => return .unsupported "CMYK32"
  | model =>
    let row (y : Nat) : List UInt8 :=
      (List.range frame.width).flatMap fun x => (pixel model (samples x y)).bytes
    let pixels := ((List.range frame.height).flatMap row).toArray
    return .bitmap ⟨frame.width, frame.height, ⟨pixels⟩⟩

/-- The density in the first segment of a file, in dots per inch. -/
def density? (file : ByteArray) : Option (Float32 × Float32) := do
  if Bytes.startsWith (file.extract 2 file.size) [0xff, 0xe0] then
    let name ← Bytes.slice? file 6 5
    let unit ← Bytes.byte? file 13
    let x ← Bytes.word16? file 14
    let y ← Bytes.word16? file 16
    if name.toList ≠ "JFIF\x00".toUTF8.toList ∨ x = 0 ∨ y = 0 then none
    else if unit = 1 then return (Single.ofNat x, Single.ofNat y)
    else if unit = 2 then return (Single.ofNat x * 2.54, Single.ofNat y * 2.54)
    else none
  else none

end Xps.Jpeg
