import Xps.Bytes
import Xps.Image.Jpeg.StandardCode

/-!
# What the segments of a JPEG file say

Segments hold tables of factors and codes, the frame with the size of the image and its components,
and marks of the programs that wrote the file.
-/

namespace Xps.Jpeg

structure Component where
  id : Nat
  /-- Samples of the component in each smallest unit of the image, across and down. -/
  across : Nat
  down : Nat
  /-- The number of its table of factors. -/
  quantization : Nat

/-- How the coefficients of a frame come. -/
inductive Process
  /-- All at once, with the first two codes of each class only. -/
  | baseline
  /-- All at once. -/
  | sequential
  /-- In bands, and their lowest bits later. -/
  | progressive
deriving DecidableEq

structure Frame where
  width : Nat
  height : Nat
  components : List Component
  process : Process

namespace Frame

/-- The greatest number of a code. -/
def lastCode (f : Frame) : Nat := if f.process = .baseline then 1 else 3

def maxAcross (f : Frame) : Nat := (f.components.map Component.across).foldl Nat.max 1

def maxDown (f : Frame) : Nat := (f.components.map Component.down).foldl Nat.max 1

/-- A quotient that is rounded up. -/
def ceilDiv (n d : Nat) : Nat := (n + d - 1) / d

def unitsAcross (f : Frame) : Nat := ceilDiv f.width (8 * f.maxAcross)

def unitsDown (f : Frame) : Nat := ceilDiv f.height (8 * f.maxDown)

/-- The samples of a component in a row. -/
def columns (f : Frame) (c : Component) : Nat := ceilDiv (f.width * c.across) f.maxAcross

/-- The rows of samples of a component. -/
def rows (f : Frame) (c : Component) : Nat := ceilDiv (f.height * c.down) f.maxDown

def blocksAcross (f : Frame) (c : Component) : Nat := f.unitsAcross * c.across

def blocksDown (f : Frame) (c : Component) : Nat := f.unitsDown * c.down

end Frame

inductive CodeClass
  | means
  | others
deriving DecidableEq

def CodeClass.ofNumber? : Nat → Option CodeClass
  | 0 => some means
  | 1 => some others
  | _ => none

structure Tables where
  /-- Factors of the coefficients in rows. -/
  factors : List (Nat × Array Nat) := []
  codes : List ((CodeClass × Nat) × HuffmanCode) := []
  frame : Option Frame := none
  /-- There is a segment of a JFIF file. -/
  isJfif : Bool := false
  /-- There is a segment of a film. -/
  isFilm : Bool := false
  /-- The color transform that a segment of an Adobe file names. -/
  adobeTransform : Option Nat := none
  /-- The units from one restart to the next, or zero. -/
  restartInterval : Nat := 0

/-- The places in a block of the coefficients in the order of the file. -/
def zigzag : Array Nat :=
  #[0, 1, 8, 16, 9, 2, 3, 10, 17, 24, 32, 25, 18, 11, 4, 5, 12, 19, 26, 33, 40, 48, 41, 34, 27, 20,
    13, 6, 7, 14, 21, 28, 35, 42, 49, 56, 57, 50, 43, 36, 29, 22, 15, 23, 30, 37, 44, 51, 58, 59,
    52, 45, 38, 31, 39, 46, 53, 60, 61, 54, 47, 55, 62, 63]

/-- The place of a coefficient in a block. -/
def place (index : Nat) : Nat := zigzag[index]?.getD 0

namespace Tables

/-- The factors of a table of bytes or words. None of them is zero. -/
def readFactors? (values : ByteArray) (isWide : Bool) : Option (Array Nat) := do
  let inOrder ← (List.range 64).mapM fun k =>
    if isWide then Bytes.word16? values (2 * k) else Bytes.byte? values k
  if inOrder.contains 0 then none
  else
    let blank : Array Nat := Array.replicate 64 0
    return inOrder.zipIdx.foldl (fun table (x, k) => table.set! (place k) x) blank

/-- Reads tables of factors up to the end of a segment. -/
def addFactors? (data : ByteArray) : Nat → Nat → Tables → Option Tables
  | 0, _, t => some t
  | steps + 1, offset, t =>
    if data.size ≤ offset then some t
    else do
      let head ← Bytes.byte? data offset
      let length := if head / 16 = 0 then 64 else 128
      let table ← readFactors? (← Bytes.slice? data (offset + 1) length) (head / 16 != 0)
      if head / 16 ≤ 1 ∧ head % 16 ≤ 3 then
        addFactors? data steps (offset + 1 + length)
          { t with factors := (head % 16, table) :: t.factors }
      else none

/-- The words of a code are not used up before its last symbol. -/
def fits (code : HuffmanCode) : Bool :=
  0 < code.symbols.size && code.symbols.size ≤ 256 &&
    HuffmanCode.wordsUsed code.counts ≤ 2 ^ code.counts.length

/-- Reads codes up to the end of a segment. -/
def addCodes? (data : ByteArray) : Nat → Nat → Tables → Option Tables
  | 0, _, t => some t
  | steps + 1, offset, t =>
    if data.size ≤ offset then some t
    else do
      let head ← Bytes.byte? data offset
      let codeClass ← CodeClass.ofNumber? (head / 16)
      let counts := (← Bytes.slice? data (offset + 1) 16).toList.map UInt8.toNat
      let symbols ← Bytes.slice? data (offset + 17) counts.sum
      let code : HuffmanCode := ⟨counts, symbols.data.map UInt8.toNat⟩
      let last := (t.frame.map Frame.lastCode).getD 3
      if head % 16 ≤ last ∧ fits code then
        addCodes? data steps (offset + 17 + counts.sum)
          { t with codes := ((codeClass, head % 16), code) :: t.codes }
      else none

def component? (data : ByteArray) (index : Nat) : Option Component := do
  let id ← Bytes.byte? data (6 + 3 * index)
  let sampling ← Bytes.byte? data (7 + 3 * index)
  let quantization ← Bytes.byte? data (8 + 3 * index)
  let across := sampling / 16
  let down := sampling % 16
  if 1 ≤ across ∧ across ≤ 4 ∧ 1 ≤ down ∧ down ≤ 4 ∧ quantization ≤ 3 then
    return ⟨id, across, down, quantization⟩
  else none

/-- There is one frame, of one, three or four components that differ. -/
def addFrame? (process : Process) (data : ByteArray) (t : Tables) : Option Tables := do
  let depth ← Bytes.byte? data 0
  let height ← Bytes.word16? data 1
  let width ← Bytes.word16? data 3
  let count ← Bytes.byte? data 5
  let components ← (List.range count).mapM (component? data)
  if depth = 8 ∧ 0 < height ∧ 0 < width ∧ data.size = 6 + 3 * count ∧ t.frame.isNone
      ∧ count ∈ [1, 3, 4] ∧ (components.map Component.id).Nodup then
    return { t with frame := some ⟨width, height, components, process⟩ }
  else none

def addRestartInterval? (data : ByteArray) (t : Tables) : Option Tables :=
  if data.size = 2 then (Bytes.word16? data 0).map fun n => { t with restartInterval := n }
  else none

def addAdobe? (data : ByteArray) (t : Tables) : Option Tables :=
  if Bytes.startsWith data "Adobe\x00".toUTF8.toList ∧ 12 ≤ data.size then
    ((Bytes.byte? data 11).filter (· ≤ 2)).map fun n => { t with adobeTransform := some n }
  else some t

/-- The process of the frame that a marker stands in front of. -/
def process? : Nat → Option Process
  | 0xc0 => some .baseline
  | 0xc1 => some .sequential
  | 0xc2 => some .progressive
  | _ => none

/-- Takes a segment in. -/
def add? (t : Tables) (marker : Nat) (data : ByteArray) : Option Tables :=
  if marker = 0xdb then addFactors? data data.size 0 t
  else if marker = 0xc4 then addCodes? data data.size 0 t
  else if let some process := process? marker then t.addFrame? process data
  else if marker = 0xdd then t.addRestartInterval? data
  else if marker = 0xe0 then
    some { t with
      isJfif := t.isJfif || Bytes.startsWith data "JFIF\x00".toUTF8.toList
      isFilm := t.isFilm || Bytes.startsWith data "AVI1\x00".toUTF8.toList }
  else if marker = 0xee then t.addAdobe? data
  else if (0xe0 ≤ marker ∧ marker ≤ 0xef) ∨ marker = 0xfe then some t
  else none

/-- The code of a class and number. A film may leave out the first two of each class. -/
def code? (t : Tables) (codeClass : CodeClass) (number : Nat) : Option HuffmanCode :=
  let standard : Option HuffmanCode :=
    match t.isFilm, codeClass, number with
    | true, .means, 0 => some StandardCode.brightMeans
    | true, .means, 1 => some StandardCode.coloredMeans
    | true, .others, 0 => some StandardCode.brightOthers
    | true, .others, 1 => some StandardCode.coloredOthers
    | _, _, _ => none
  (t.codes.lookup (codeClass, number)).or standard

end Tables

end Xps.Jpeg
