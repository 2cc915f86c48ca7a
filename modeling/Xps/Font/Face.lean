import Xps.Font.CharacterMap
import Xps.Font.Provider

/-!
# Faces

A font file is a directory of tables, or a collection of such directories. A face is one of them
with the tables that every font needs: its units, its metrics and its count of glyphs.
-/

namespace Xps

/-- The records of the tables of a font, in the order of the file. A table that is not inside of the
file is missing. -/
structure FontTables where
  records : Array (String × Option ByteArray)

namespace FontTables

/-- The table of the last record of a name that has one. -/
def get? (t : FontTables) (name : String) : Option ByteArray :=
  t.records.toList.reverse.findSome? fun record => if record.1 = name then record.2 else none

/-- The table of the record of a name that is found by halving. -/
def search? (t : FontTables) (name : String) : Option ByteArray := do
  let index ← Records.search? t.records.size fun k =>
    compare ((t.records[k]?.map Prod.fst).getD "") name
  (← t.records[index]?).2

/-- The file begins with a directory of tables. -/
def isFont (tag : Nat) : Bool := tag == 0x00010000 || tag == 0x4f54544f || tag == 0x74727565

def isCollection (tag : Nat) : Bool := tag == 0x74746366

/-- How many faces there are in a file. -/
def faceCount (file : ByteArray) : Nat :=
  match Bytes.word32? file 0 with
  | some tag => if isCollection tag then (Bytes.word32? file 8).getD 0 else 1
  | none => 1

/-- Where the directory of a face begins. That of a collection comes behind the list of its faces,
and a file of one face has no other. -/
def directoryOffset? (file : ByteArray) (index : Nat) : Option Nat := do
  let tag ← Bytes.word32? file 0
  if isCollection tag then
    let count ← Bytes.word32? file 8
    let _ ← Bytes.slice? file 12 (4 * count)
    let offset ← Bytes.word32? file (12 + 4 * index)
    let tag ← Bytes.word32? file offset
    if index < count ∧ 12 + 4 * count ≤ offset ∧ isFont tag then return offset else none
  else if isFont tag ∧ index = 0 then return 0
  else none

def name? (file : ByteArray) (offset : Nat) : Option String := do
  return String.ofList ((← Bytes.slice? file offset 4).toList.map fun b => .ofNat b.toNat)

/-- The record of a table at a place of the directory. -/
def record? (file : ByteArray) (offset : Nat) : Option (String × Option ByteArray) := do
  let name ← name? file offset
  let start ← Bytes.word32? file (offset + 8)
  let length ← Bytes.word32? file (offset + 12)
  return (name, Bytes.slice? file start length)

/-- Reads the directory of a face. -/
def ofFile? (file : ByteArray) (index : Nat) : Option FontTables := do
  let offset ← directoryOffset? file index
  let count ← Bytes.word16? file (offset + 4)
  let records ← (List.range count).mapM fun k => record? file (offset + 12 + 16 * k)
  return ⟨records.toArray⟩

end FontTables

structure Face where
  tables : FontTables
  unitsPerEm : Nat
  /-- Glyph offsets have 32 bits, or half of it and count pairs of bytes. -/
  longOffsets : Bool
  ascender : Int
  descender : Int
  metricsCount : Nat
  glyphCount : Nat

namespace Face

/-- The units of the em and the kind of glyph offsets. -/
def head? (data : ByteArray) : Option (Nat × Bool) := do
  let units ← Bytes.word16? data 18
  let format ← Bytes.word16? data 50
  if 54 ≤ data.size ∧ 16 ≤ units ∧ units ≤ 16384 ∧ format ≤ 1 then return (units, format == 1)
  else none

/-- The ascender, the descender and the count of horizontal metrics. -/
def hhea? (data : ByteArray) : Option (Int × Int × Nat) := do
  return (← Bytes.signed16? data 4, ← Bytes.signed16? data 6, ← Bytes.word16? data 34)

/-- How far lines of a table of metrics reach up and down. -/
structure LineReach where
  /-- These are meant to be used before all others. -/
  isPreferred : Bool
  ascender : Int
  descender : Int
  /-- How far any glyph may reach up. -/
  highest : Int
  /-- How far any glyph may reach down. -/
  lowest : Int

/-- Reads a table whose length depends on its version. -/
def lineReach? (data : ByteArray) : Option LineReach := do
  let version ← Bytes.word16? data 0
  let length ← [78, 86, 96, 96, 96, 100][version]?
  let selection ← Bytes.word16? data 62
  let ascender ← Bytes.signed16? data 68
  let descender ← Bytes.signed16? data 70
  let highest ← Bytes.signed16? data 74
  let lowest ← Bytes.signed16? data 76
  if data.size < length then none
  else
    return { isPreferred := 4 ≤ version && selection / 128 % 2 == 1
             ascender, descender, highest, lowest := -lowest }

/-- Chooses among a horizontal metric, a metric of lines and one of glyphs. One that is zero is not
known. -/
def reach (horizontal line glyphs : Int) (isPreferred : Bool) : Int :=
  if isPreferred then line
  else if horizontal ≠ 0 then horizontal
  else if line ≠ 0 then line
  else glyphs

/-- The count of glyphs, which is not zero. -/
def maxp? (data : ByteArray) : Option Nat := do
  let version ← Bytes.word32? data 0
  let count ← Bytes.word16? data 4
  if (version = 0x00005000 ∨ version = 0x00010000) ∧ count ≠ 0 then return count else none

/-- Reads a face of a file. -/
def ofFile? (file : ByteArray) (index : Nat) : Option Face := do
  let tables ← FontTables.ofFile? file index
  let (unitsPerEm, longOffsets) ← head? (← tables.get? "head")
  let (ascender, descender, metricsCount) ← hhea? (← tables.get? "hhea")
  let glyphCount ← maxp? (← tables.get? "maxp")
  let face : Face :=
    { tables, unitsPerEm, longOffsets, ascender, descender, metricsCount, glyphCount }
  match (tables.get? "OS/2").bind lineReach? with
  | some lines =>
    return { face with
      ascender := reach ascender lines.ascender lines.highest lines.isPreferred
      descender := reach descender lines.descender lines.lowest lines.isPreferred }
  | none => return face

def metrics (f : Face) : FontMetrics :=
  ⟨UInt16.ofNat f.unitsPerEm, Int16.ofInt f.ascender, Int16.ofInt f.descender⟩

/-! ## Advances -/

/-- The table of advances, if all of them are there. -/
def advances? (f : Face) : Option ByteArray := do
  let data ← f.tables.get? "hmtx"
  if f.metricsCount = 0 then none
  else
    let _ ← Bytes.slice? data 0 (4 * f.metricsCount)
    return data

/-- The advance of a glyph. The last one holds for the glyphs behind it. -/
def advance? (f : Face) (glyph : Nat) : Option Nat := do
  let data ← f.advances?
  if glyph < Nat.max f.metricsCount f.glyphCount then
    Bytes.word16? data (4 * Nat.min glyph (f.metricsCount - 1))
  else none

/-! ## Characters -/

def characterMap (f : Face) : CharacterMap :=
  ((f.tables.get? "cmap").bind CharacterMap.ofTable?).getD {}

/-- The glyph of a character, or the one that stands for missing glyphs. -/
def glyph (f : Face) (c : Char) : Nat := (f.characterMap.glyph? c).getD 0

/-- The glyphs of a text from left to right, one for each character, with the advance that the glyph
has alone. Tables that replace, join, place or kern glyphs (GSUB, GPOS, GDEF, morx, kern) are not
read, and characters are neither composed nor reordered nor mirrored nor hidden. -/
def shape (f : Face) : Nat → List Char → List ShapedGlyph
  | _, [] => []
  | cluster, c :: cs =>
    let glyph := (f.characterMap.written? c).getD 0
    let advance :=
      if f.advances?.isSome then (f.advance? glyph).getD 0 else f.unitsPerEm
    ⟨UInt16.ofNat glyph, cluster, Int32.ofNat advance, 0, 0⟩ :: f.shape (cluster + c.utf8Size) cs

end Face

end Xps
