import Xps.Bytes
import Xps.Image.Huffman

/-!
# Entropy coded data

The data of a scan is a stream of bits up to the next marker, and zeros behind it. Whole bytes are
taken in ahead of their bits, so the end of the file shows before all bits are used, and a marker
counts only if it has been met by then.
-/

namespace Xps.Jpeg

/-- The code of a marker behind any number of fill bytes, and the place behind it. -/
def markerCode? (file : ByteArray) : Nat → Nat → Option (Nat × Nat)
  | 0, _ => none
  | steps + 1, offset => do
    let code ← Bytes.byte? file offset
    if code = 0xff then markerCode? file steps (offset + 1)
    else if code = 0 then none
    else return (code, offset + 1)

structure BitStream where
  file : ByteArray
  offset : Nat
  /-- The bits that are taken in and not used yet, the next one highest. -/
  bits : Nat := 0
  count : Nat := 0
  /-- The marker behind the data, once it is met. -/
  marker : Option Nat := none

namespace BitStream

def push (s : BitStream) (byte : Nat) : BitStream :=
  { s with bits := 256 * s.bits + byte, count := s.count + 8 }

/-- Takes the next byte in. A byte of ones is data only in front of a zero, which is dropped. -/
def takeIn? (s : BitStream) : Option BitStream :=
  if s.marker.isSome then some (s.push 0)
  else do
    let byte ← Bytes.byte? s.file s.offset
    if byte ≠ 0xff then return { s with offset := s.offset + 1 }.push byte
    else if (← Bytes.byte? s.file (s.offset + 1)) = 0 then
      return { s with offset := s.offset + 2 }.push byte
    else
      let (marker, offset) ← markerCode? s.file s.file.size (s.offset + 1)
      return { s with offset, marker := some marker }.push 0

def takeInMany? : Nat → BitStream → Option BitStream
  | 0, s => some s
  | n + 1, s => s.takeIn?.bind (takeInMany? n)

/-- Takes bytes in until there are more than 56 bits. -/
def fill? (s : BitStream) : Option BitStream := takeInMany? ((64 - s.count) / 8) s

/-- Fills up unless there are some bits. -/
def ensure? (n : Nat) (s : BitStream) : Option BitStream := if s.count < n then s.fill? else some s

/-- Uses bits that are there, as a number. -/
def use (n : Nat) (s : BitStream) : Nat × BitStream :=
  let left := s.count - n
  (s.bits / 2 ^ left, { s with bits := s.bits % 2 ^ left, count := left })

def bits? (n : Nat) (s : BitStream) : Option (Nat × BitStream) :=
  (s.ensure? n).map (use n)

def bit? (s : BitStream) : Option (Nat × BitStream) := if s.count = 0 then none else some (s.use 1)

/-- Reads a symbol. -/
def symbol? (code : HuffmanCode) (s : BitStream) : Option (Nat × BitStream) := do
  code.symbol? bit? (← s.ensure? 16)

/-- Reads a symbol and tells the length of its word. -/
def symbolAndLength? (code : HuffmanCode) (s : BitStream) : Option ((Nat × Nat) × BitStream) := do
  let before ← s.ensure? 16
  let (symbol, after) ← code.symbol? bit? before
  return ((symbol, before.count - after.count), after)

/-- The marker that has been met once the stream is filled up. It is met only once. -/
def takeMarker? (s : BitStream) : Option (Option Nat × BitStream) := do
  let s ← s.fill?
  return (s.marker, { s with marker := none })

/-- Drops the bits that are left over, in front of the data behind a marker. -/
def restart (s : BitStream) : BitStream := { s with bits := 0, count := 0 }

end BitStream

/-- A number of some bits. The lower half of the range stands for negative numbers. -/
def signed (size : Nat) (x : Nat) : Int :=
  if 2 * x < 2 ^ size then (x : Int) - 2 ^ size + 1 else x

end Xps.Jpeg
