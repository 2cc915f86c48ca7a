/-!
# Checksums

The cyclic redundancy check of 32 bits.
-/

namespace Xps.Checksum

/-- Divides the lowest bits of a word by the polynomial. -/
def divide : Nat → UInt32 → UInt32
  | 0, word => word
  | n + 1, word =>
    let quotient := word >>> 1
    divide n (if word &&& 1 = 1 then (0xedb88320 : UInt32) ^^^ quotient else quotient)

def table : Array UInt32 := (Array.range 256).map fun n => divide 8 (UInt32.ofNat n)

def step (word : UInt32) (byte : UInt8) : UInt32 :=
  table.getD ((word ^^^ byte.toUInt32) &&& 0xff).toNat 0 ^^^ (word >>> 8)

def crc32 (data : ByteArray) : UInt32 :=
  data.foldl step 0xffffffff ^^^ 0xffffffff

end Xps.Checksum
