import Xps.Number.Power

/-!
# Numbers in byte arrays

Big-endian words at any place of a byte array. There are none behind its end.
-/

namespace Xps.Bytes

def byte? (data : ByteArray) (offset : Nat) : Option Nat := data[offset]?.map UInt8.toNat

def word16? (data : ByteArray) (offset : Nat) : Option Nat := do
  return 256 * (← byte? data offset) + (← byte? data (offset + 1))

def word32? (data : ByteArray) (offset : Nat) : Option Nat := do
  return 65536 * (← word16? data offset) + (← word16? data (offset + 2))

/-- A signed word in two's complement. -/
def signed16? (data : ByteArray) (offset : Nat) : Option Int := do
  return (Int.ofNat (← word16? data offset)).bmod 65536

/-- A slice that lies inside of the array. -/
def slice? (data : ByteArray) (offset length : Nat) : Option ByteArray :=
  if offset + length ≤ data.size then some (data.extract offset (offset + length)) else none

def startsWith (data : ByteArray) (start : List UInt8) : Bool :=
  start.isPrefixOf (data.extract 0 start.length).toList

/-- The four bytes of a word. -/
def ofWord32 (n : Nat) : ByteArray :=
  ⟨#[UInt8.ofNat (n / 2 ^ 24), UInt8.ofNat (n / 2 ^ 16), UInt8.ofNat (n / 2 ^ 8), UInt8.ofNat n]⟩

end Xps.Bytes
