import Xps.Bytes

/-!
# Stored streams

A compressed stream whose blocks hold their bytes as they are, between the header and the checksum
of its container.
-/

namespace Xps.Deflate

/-- The largest remainder that a sum of the checksum can have, and one more. -/
def modulus : Nat := 65521

/-- The sum of the bytes, from one on, beside the sum of those sums. -/
def checksum (data : ByteArray) : Nat :=
  let (a, b) := data.foldl (fun (a, b) byte =>
    let a := (a + byte.toNat) % modulus
    (a, (b + a) % modulus)) (1, 0)
  65536 * b + a

/-- How many bytes a block can hold. -/
def blockLength : Nat := 65535

/-- A block: whether it is the last, its length, the complement of that, and its bytes. -/
def block (data : ByteArray) (isLast : Bool) : ByteArray :=
  let length := data.size
  let complement := blockLength - length
  ⟨#[if isLast then 1 else 0, UInt8.ofNat length, UInt8.ofNat (length / 256),
    UInt8.ofNat complement, UInt8.ofNat (complement / 256)]⟩ ++ data

/-- The blocks of the bytes from an offset on, the last one with at most `blockLength` bytes. -/
def blocksFrom (data : ByteArray) (offset : Nat) : ByteArray :=
  if offset + blockLength < data.size then
    block (data.extract offset (offset + blockLength)) false
      ++ blocksFrom data (offset + blockLength)
  else block (data.extract offset data.size) true
termination_by data.size - offset
decreasing_by
  simp only [blockLength] at *
  omega

def container (data : ByteArray) : ByteArray :=
  ⟨#[0x78, 0x01]⟩ ++ blocksFrom data 0 ++ Bytes.ofWord32 (checksum data)

end Xps.Deflate
