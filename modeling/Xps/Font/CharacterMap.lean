import Xps.Bytes
import Xps.Font.Records

/-!
# Character maps

A font maps characters to glyphs in several subtables, each for an encoding of characters. Most of
them are for Unicode, in one of several formats.
-/

namespace Xps

structure MapSubtable where
  platform : Nat
  encoding : Nat
  format : Nat
  data : ByteArray

namespace MapSubtable

/-- Whether some bytes from a place on are there. -/
def has (s : MapSubtable) (offset length : Nat) : Bool :=
  (Bytes.slice? s.data offset length).isSome

/-- The count of segments of a map by segments. -/
def segmentCount (s : MapSubtable) : Nat := (Bytes.word16? s.data 6).getD 0 / 2

/-- The count of subheaders of a map by high bytes: one more than the largest key. -/
def subheaderCount (s : MapSubtable) : Nat :=
  ((List.range 256).map fun k => (Bytes.word16? s.data (6 + 2 * k)).getD 0 / 8).foldl Nat.max 0 + 1

/-- The parts of fixed length are all there. -/
def isWhole (s : MapSubtable) : Bool :=
  match s.format with
  | 0 => s.has 6 256
  | 2 => s.has 6 512 && s.has 518 (8 * s.subheaderCount)
  | 4 => s.has 0 14 && 1 ≤ s.segmentCount && s.has 14 (2 + 8 * s.segmentCount)
  | 6 => (Bytes.word16? s.data 8).any fun count => s.has 10 (2 * count)
  | 8 => true
  | 10 => (Bytes.word32? s.data 16).any fun count => s.has 20 (2 * count)
  | 12 | 13 => (Bytes.word32? s.data 12).any fun count => s.has 16 (12 * count)
  | 14 => (Bytes.word32? s.data 6).any fun count => s.has 10 (11 * count)
  | _ => false

/-- Maps a code to a glyph that is not the missing one. -/
def present? (glyph : Nat) : Option Nat := if glyph = 0 then none else some glyph

/-- Looks a code of 16 bits up by its high byte, and then by its low byte. -/
def glyphOfHighBytes? (data : ByteArray) (code : Nat) : Option Nat := do
  let index ← if code < 0xff then some 0
    else (Bytes.word16? data (6 + 2 * (code / 256))).map (· / 8)
  let header := 518 + 8 * index
  let first ← Bytes.word16? data header
  let count ← Bytes.word16? data (header + 2)
  let delta ← Bytes.signed16? data (header + 4)
  let offset ← Bytes.word16? data (header + 6)
  let low := code % 256
  if low < first ∨ first + count ≤ low ∨ 65536 ≤ first + count then none
  else
    let glyph ← present? (← Bytes.word16? data (header + 6 + offset + 2 * (low - first)))
    let moved := Int.tmod (glyph + delta) 65536
    if moved < 0 then none else return moved.toNat

/-- The glyph of a code in a segment. Places wrap around at 16 bits. -/
def glyphInSegment? (data : ByteArray) (count index code start : Nat) : Option Nat := do
  let starts := 16 + 2 * count
  let delta ← Bytes.word16? data (starts + 2 * count + 2 * index)
  let offsetPlace := starts + 4 * count + 2 * index
  let offset ← Bytes.word16? data offsetPlace
  if offset = 0 then return (code + delta) % 65536
  else if offset = 0xffff ∨ 32768 ≤ code - start then none
  else
    let place := (offsetPlace + 2 * (code - start) + offset) % 65536
    let glyph ← present? (← Bytes.word16? data place)
    let moved := (glyph + delta) % 65536
    if 32768 ≤ moved then none else return moved

/-- Looks a code of 16 bits up in a range of the segments, by halving. -/
def glyphOfSegments? (data : ByteArray) (count code : Nat) (first last : Nat) : Option Nat :=
  if first < last then do
    let index := (first + last) / 2
    if (← Bytes.word16? data (14 + 2 * index)) < code then
      glyphOfSegments? data count code (index + 1) last
    else
      let start ← Bytes.word16? data (16 + 2 * count + 2 * index)
      if code < start then glyphOfSegments? data count code first index
      else glyphInSegment? data count index code start
  else none
termination_by last - first

/-- Looks a code up in groups of successive codes with successive glyphs. -/
def glyphOfGroups? (data : ByteArray) (code : Nat) : Option Nat := do
  let count ← Bytes.word32? data 12
  let first (k : Nat) : Nat := (Bytes.word32? data (16 + 12 * k)).getD 0
  let last (k : Nat) : Nat := (Bytes.word32? data (20 + 12 * k)).getD 0
  let index ← Records.search? count fun k =>
    if code < first k then .gt else if last k < code then .lt else .eq
  let glyph ← Bytes.word32? data (24 + 12 * index)
  let moved := glyph + code - first index
  if glyph + code < 2 ^ 32 ∧ moved < 65536 then return moved else none

/-- Looks a code up in groups of successive codes with a common glyph. -/
def glyphOfCommonGroups? (data : ByteArray) (code : Nat) : Option Nat := do
  let count ← Bytes.word32? data 12
  let index ← (List.range count).find? fun k =>
    (Bytes.word32? data (16 + 12 * k)).any (· ≤ code)
      && (Bytes.word32? data (20 + 12 * k)).any (code ≤ ·)
  (Bytes.word32? data (24 + 12 * index)).filter (· < 65536)

/-- The glyph of a code. Segments, bytes and short lists hold codes of 16 bits only. -/
def glyph? (s : MapSubtable) (code : Nat) : Option Nat :=
  let isShort := code < 65536
  match s.format with
  | 0 => if code < 256 then (Bytes.byte? s.data (6 + code)).bind present? else none
  | 2 => if isShort then glyphOfHighBytes? s.data code else none
  | 4 => if isShort then glyphOfSegments? s.data s.segmentCount code 0 s.segmentCount else none
  | 6 => do
    let first ← Bytes.word16? s.data 6
    let count ← Bytes.word16? s.data 8
    if first ≤ code ∧ code < first + count ∧ isShort then
      Bytes.word16? s.data (10 + 2 * (code - first))
    else none
  | 10 => do
    let first ← Bytes.word32? s.data 12
    let count ← Bytes.word32? s.data 16
    if first ≤ code ∧ code < first + count then Bytes.word16? s.data (20 + 2 * (code - first))
    else none
  | 12 => glyphOfGroups? s.data code
  | 13 => glyphOfCommonGroups? s.data code
  | _ => none

/-- The codes are those of Unicode. All planes need a format with groups. -/
def isUnicode (s : MapSubtable) : Bool :=
  s.platform == 0 || (s.platform == 3 && (s.encoding == 1 ||
    (s.encoding == 10 && (s.format == 12 || s.format == 13))))

/-- The codes are those of a font of symbols. -/
def isSymbols (s : MapSubtable) : Bool := s.platform == 3 && s.encoding == 0

/-- The subtable of a record at a place of the table. -/
def ofRecord? (table : ByteArray) (offset : Nat) : Option MapSubtable := do
  let platform ← Bytes.word16? table offset
  let encoding ← Bytes.word16? table (offset + 2)
  let start ← Bytes.word32? table (offset + 4)
  let data ← Bytes.slice? table start (table.size - start)
  let s : MapSubtable := ⟨platform, encoding, ← Bytes.word16? data 0, data⟩
  if platform ≤ 4 ∧ s.isWhole then return s else none

end MapSubtable

structure CharacterMap where
  subtables : List MapSubtable := []

namespace CharacterMap

/-- Reads the subtables of a table, up to a broken one. -/
def ofTable? (table : ByteArray) : Option CharacterMap := do
  let count ← Bytes.word16? table 2
  let _ ← Bytes.slice? table 4 (8 * count)
  let records := (List.range count).map fun k => MapSubtable.ofRecord? table (4 + 8 * k)
  return ⟨Records.takeSome records⟩

/-- The glyph of a character in the first subtable for Unicode that has it. -/
def glyph? (m : CharacterMap) (c : Char) : Option Nat :=
  (m.subtables.filter MapSubtable.isUnicode).findSome? (·.glyph? c.toNat)

/-- The platforms and encodings that a text is written with, the best one first. -/
def preferences : List (Nat × Nat) :=
  [(3, 0), (3, 10), (0, 6), (0, 4), (3, 1), (0, 3), (0, 2), (0, 1), (0, 0)]

/-- The one subtable that a text is written with. -/
def preferred? (m : CharacterMap) : Option MapSubtable :=
  preferences.findSome? fun (platform, encoding) =>
    m.subtables.find? fun s => s.platform == platform && s.encoding == encoding

/-- The glyph of a character of a text. Symbols have codes of their own for single bytes. -/
def written? (m : CharacterMap) (c : Char) : Option Nat := do
  let s ← m.preferred?
  let symbol := if s.isSymbols && c.toNat ≤ 0xff then s.glyph? (0xf000 + c.toNat) else none
  (s.glyph? c.toNat).or symbol

end CharacterMap

end Xps
