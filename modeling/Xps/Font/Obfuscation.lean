import Xps.Text.Digit

/-!
# Obfuscated fonts

The first 32 bytes of an embedded font may be mixed with the GUID that names its part. The GUID is
read in its canonical form of five groups of hex digits, the first three of which are stored with
the last byte first.
-/

namespace Xps

/-- The sixteen bytes of a GUID. -/
abbrev Guid := Vector UInt8 16

namespace Guid

def hexDigit? (c : UInt8) : Option UInt8 := (Text.hexDigit? (.ofNat c.toNat)).map UInt8.ofNat

/-- Where the two digits of each byte begin. -/
def digitOffsets : Vector Nat 16 :=
  #v[6, 4, 2, 0, 11, 9, 16, 14, 19, 21, 24, 26, 28, 30, 32, 34]

def dashOffsets : List Nat := [8, 13, 18, 23]

/-- The byte written with two digits at an offset. -/
def byteAt? (text : ByteArray) (offset : Nat) : Option UInt8 := do
  let high ← hexDigit? (← text[offset]?)
  let low ← hexDigit? (← text[offset + 1]?)
  return 16 * high + low

/-- Reads a GUID. What follows the 36th byte is ignored. -/
def parse? (text : String) : Option Guid :=
  let bytes := text.toUTF8
  if bytes.size < 36 ∨ !dashOffsets.all (fun i => bytes[i]? == some 0x2d) then none
  else digitOffsets.mapM (byteAt? bytes)

/-- The byte of the GUID that each of the first sixteen bytes of a font is mixed with. -/
def keyOffsets : Vector Nat 16 := #v[15, 14, 13, 12, 11, 10, 9, 8, 6, 7, 4, 5, 0, 1, 2, 3]

/-- The bytes that a font is mixed with. -/
def key (guid : Guid) : Vector UInt8 16 := keyOffsets.map fun i => guid[i]?.getD 0

/-- How many bytes are mixed: the key, twice. -/
def obfuscatedLength : Nat := 32

/-- Mixes the first bytes of a font with the key, or unmixes them. -/
def deobfuscate? (guid : Guid) (data : ByteArray) : Option ByteArray :=
  if data.size < obfuscatedLength then none
  else
    let mixed := data.data.mapIdx fun i byte =>
      if i < obfuscatedLength then byte ^^^ guid.key[i % 16]?.getD 0 else byte
    some ⟨mixed⟩

end Guid

end Xps
