import Xps.Image.Jpeg.BitStream
import Xps.Image.Jpeg.Header

/-!
# Blocks

The coefficients of a block come in bands. The first coefficient is relative to that of the block
before, and the others are runs of zeros that end with another number. A band may leave out its
lowest bits, and each of them comes with a scan of its own.
-/

namespace Xps.Jpeg

/-- Coefficients in rows. -/
abbrev Block := Array Int

/-- The blocks of a component in rows. -/
abbrev Grid := Array Block

namespace Grid

/-- Coefficients that are all zero. -/
def blank (frame : Frame) (c : Component) : Grid :=
  Array.replicate (frame.blocksAcross c * frame.blocksDown c) (Array.replicate 64 0)

end Grid

/-- What a scan tells about blocks. -/
structure Band where
  /-- The indexes of the first and the last coefficient. -/
  first : Nat
  last : Nat
  /-- How many of the lowest bits are left for later scans. -/
  low : Nat
  /-- The scan adds one bit to what came before. -/
  isRefinement : Bool

namespace Band

/-- All coefficients with all of their bits. -/
def whole : Band := ⟨0, 63, 0, false⟩

def indexes (b : Band) : List Nat := (List.range (b.last + 1)).drop b.first

/-- The unit of the band. -/
def unit (b : Band) : Int := 2 ^ b.low

/-- A number of the band as a coefficient, which has sixteen bits. -/
def scale (b : Band) (x : Int) : Int := (x * b.unit).bmod 65536

/-- The bit of the band is set in a coefficient. -/
def hasBit (b : Band) (x : Int) : Bool := x.fdiv b.unit % 2 == 1

/-! ## First bits -/

/-- Reads the first coefficient of a block, relative to the one before. -/
def readMean? (code : HuffmanCode) (last : Int) (s : BitStream) : Option (Int × BitStream) := do
  let (size, s) ← s.symbol? code
  if 11 < size then none
  else
    let (x, s) ← s.bits? size
    return ((last + signed size x).bmod 65536, s)

/-- Reads the other coefficients of a block from an index on. Tells how many of the next blocks have
none. A number behind the end of the band is dropped if it is short enough to have been looked up
together with its run. -/
def readOthers? (b : Band) (code : HuffmanCode) :
    Nat → Nat → Block → BitStream → Option ((Block × Nat) × BitStream)
  | 0, _, block, s => some ((block, 0), s)
  | steps + 1, index, block, s =>
    if b.last < index then some ((block, 0), s)
    else do
      let ((symbol, length), s) ← s.symbolAndLength? code
      let run := symbol / 16
      let size := symbol % 16
      if size = 0 ∧ run < 15 then
        let (more, s) ← s.bits? run
        return ((block, 2 ^ run - 1 + more), s)
      else if size = 0 then b.readOthers? code steps (index + 16) block s
      else if b.last < index + run then
        let (_, s) ← s.bits? (if length + size ≤ 8 then size else 0)
        return ((block, 0), s)
      else
        let (x, s) ← s.bits? size
        let block := block.set! (place (index + run)) (b.scale (signed size x))
        b.readOthers? code steps (index + run + 1) block s

/-! ## Later bits -/

/-- Moves a coefficient away from zero by the bit of the band, unless it is set. -/
def deepen? (b : Band) (x : Int) : Option Int :=
  let y := if 0 < x then x + b.unit else x - b.unit
  if b.hasBit x then some x
  else if y = y.bmod 65536 then some y
  else none

/-- Reads a bit for each coefficient that is not zero, up to the first zero behind some others.
Tells the index of that zero, or the last index of the band. -/
def refine? (b : Band) :
    Nat → Nat → Nat → Block → BitStream → Option ((Block × Nat) × BitStream)
  | 0, _, _, block, s => some ((block, b.last), s)
  | steps + 1, index, zeros, block, s =>
    if b.last < index then some ((block, b.last), s)
    else
      let x := block[place index]?.getD 0
      if x = 0 ∧ zeros = 0 then some ((block, index), s)
      else if x = 0 then b.refine? steps (index + 1) (zeros - 1) block s
      else do
        let (bit, s) ← s.bits? 1
        let x ← if bit = 1 then b.deepen? x else some x
        b.refine? steps (index + 1) zeros (block.set! (place index) x) s

/-- Refines a whole block without new coefficients. -/
def refineAll? (b : Band) (index : Nat) (block : Block) (s : BitStream) :
    Option (Block × BitStream) :=
  (b.refine? 64 index 64 block s).map fun ((block, _), s) => (block, s)

/-- Reads the runs of new coefficients from an index on, and refines those on the way. Tells how
many of the next blocks have no new ones. -/
def refineOthers? (b : Band) (code : HuffmanCode) :
    Nat → Nat → Block → BitStream → Option ((Block × Nat) × BitStream)
  | 0, _, block, s => some ((block, 0), s)
  | steps + 1, index, block, s =>
    if b.last < index then some ((block, 0), s)
    else do
      let (symbol, s) ← s.symbol? code
      let run := symbol / 16
      let size := symbol % 16
      if size = 0 ∧ run < 15 then
        let (more, s) ← s.bits? run
        let (block, s) ← b.refineAll? index block s
        return ((block, 2 ^ run - 1 + more), s)
      else if 1 < size then none
      else
        let (bit, s) ← s.bits? size
        let ((block, stop), s) ← b.refine? 64 index run block s
        let x := if bit = 1 then b.unit else -b.unit
        let block := if size = 0 then block else block.set! (place stop) x
        b.refineOthers? code steps (stop + 1) block s

/-! ## Whole bands -/

/-- Where the reading of a channel stands: the first coefficient of the block before, and the blocks
to come that have no other coefficients. -/
structure Course where
  mean : Int
  skipped : Nat

/-- Reads a band of a block. -/
def read? (b : Band) (means others : HuffmanCode) (block : Block) (c : Course) (s : BitStream) :
    Option ((Block × Course) × BitStream) := do
  let start := Nat.max b.first 1
  if b.isRefinement ∧ b.first = 0 then
    let (bit, s) ← s.bits? 1
    let x := block[0]?.getD 0
    return ((if bit = 1 ∧ !b.hasBit x then block.set! 0 (x + b.unit) else block, c), s)
  else if b.isRefinement ∧ c.skipped ≠ 0 then
    let (block, s) ← b.refineAll? start block s
    return ((block, { c with skipped := c.skipped - 1 }), s)
  else if b.isRefinement then
    let ((block, skipped), s) ← b.refineOthers? others 64 start block s
    return ((block, { c with skipped }), s)
  else
    let (mean, s) ← if b.first = 0 then readMean? means c.mean s else some (c.mean, s)
    let block := if b.first = 0 then block.set! 0 (b.scale mean) else block
    if b.last < start then return ((block, { c with mean }), s)
    else if c.skipped ≠ 0 then return ((block, { mean, skipped := c.skipped - 1 }), s)
    else
      let ((block, skipped), s) ← b.readOthers? others 64 start block s
      return ((block, { mean, skipped }), s)

end Band

end Xps.Jpeg
