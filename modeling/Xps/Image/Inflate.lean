import Xps.Image.Huffman

/-!
# Inflating

Compressed data is a stream of bits: blocks of literal bytes and of copies from what came before,
both written in canonical Huffman codes. Every symbol takes at least one bit, so a loop over symbols
ends within as many steps as there are bits.
-/

namespace Xps.Inflate

/-- A place in a stream of bits. The lowest bit of a byte comes first. -/
structure BitReader where
  data : ByteArray
  position : Nat := 0

namespace BitReader

def remaining (r : BitReader) : Nat := 8 * r.data.size - r.position

def bit? (r : BitReader) : Option (Nat × BitReader) :=
  match r.data[r.position / 8]? with
  | some byte =>
    some ((byte.toNat >>> (r.position % 8)) % 2, { r with position := r.position + 1 })
  | none => none

/-- A number of some bits, the lowest bit first. -/
def bits? : Nat → BitReader → Option (Nat × BitReader)
  | 0, r => some (0, r)
  | n + 1, r => do
    let (low, r) ← r.bit?
    let (high, r) ← bits? n r
    return (low + 2 * high, r)

/-- Goes on to the next whole byte. -/
def align (r : BitReader) : BitReader := { r with position := (r.position + 7) / 8 * 8 }

/-- Takes whole bytes from an aligned place. -/
def bytes? (n : Nat) (r : BitReader) : Option (ByteArray × BitReader) :=
  let start := r.position / 8
  if start + n ≤ r.data.size then
    some (r.data.extract start (start + n), { r with position := r.position + 8 * n })
  else none

end BitReader

/-- The smallest length of each length symbol, and its extra bits. -/
def lengthBases : Array (Nat × Nat) :=
  #[(3, 0), (4, 0), (5, 0), (6, 0), (7, 0), (8, 0), (9, 0), (10, 0), (11, 1), (13, 1), (15, 1),
    (17, 1), (19, 2), (23, 2), (27, 2), (31, 2), (35, 3), (43, 3), (51, 3), (59, 3), (67, 4),
    (83, 4), (99, 4), (115, 4), (131, 5), (163, 5), (195, 5), (227, 5), (258, 0)]

/-- The smallest distance of each distance symbol, and its extra bits. -/
def distanceBases : Array (Nat × Nat) :=
  #[(1, 0), (2, 0), (3, 0), (4, 0), (5, 1), (7, 1), (9, 2), (13, 2), (17, 3), (25, 3), (33, 4),
    (49, 4), (65, 5), (97, 5), (129, 6), (193, 6), (257, 7), (385, 7), (513, 8), (769, 8),
    (1025, 9), (1537, 9), (2049, 10), (3073, 10), (4097, 11), (6145, 11), (8193, 12), (12289, 12),
    (16385, 13), (24577, 13)]

/-- The value of a symbol with its extra bits. -/
def extended? (bases : Array (Nat × Nat)) (symbol : Nat) (r : BitReader) :
    Option (Nat × BitReader) := do
  let (base, extra) ← bases[symbol]?
  let (more, r) ← r.bits? extra
  return (base + more, r)

/-- Appends bytes from some distance before the end, which may be among the appended ones. -/
def copy (distance : Nat) : Nat → ByteArray → ByteArray
  | 0, out => out
  | n + 1, out => copy distance n (out.push (out[out.size - distance]?.getD 0))

/-- The data so far and the place to go on. -/
abbrev Progress := ByteArray × BitReader

/-- Reads symbols up to the end of a block. -/
def symbols (literals distances : HuffmanCode) : Nat → Progress → Option Progress
  | 0, _ => none
  | steps + 1, (out, r) => do
    let (symbol, r) ← literals.symbol? BitReader.bit? r
    if symbol < 256 then symbols literals distances steps (out.push (UInt8.ofNat symbol), r)
    else if symbol = 256 then return (out, r)
    else
      let (length, r) ← extended? lengthBases (symbol - 257) r
      let (word, r) ← distances.symbol? BitReader.bit? r
      let (distance, r) ← extended? distanceBases word r
      if distance ≤ out.size then symbols literals distances steps (copy distance length out, r)
      else none

def fixedLiterals : HuffmanCode :=
  .ofLengths (List.replicate 144 8 ++ List.replicate 112 9 ++ List.replicate 24 7 ++
    List.replicate 8 8)

def fixedDistances : HuffmanCode := .ofLengths (List.replicate 30 5)

/-- The order in which the lengths of the code of lengths are written. -/
def lengthOrder : List Nat := [16, 17, 18, 0, 8, 7, 9, 6, 10, 5, 11, 4, 12, 3, 13, 2, 14, 1, 15]

/-- Reads word lengths, some of them as repetitions, until there are enough. -/
def wordLengths (code : HuffmanCode) (total : Nat) :
    Nat → Array Nat → BitReader → Option (Array Nat × BitReader)
  | 0, _, _ => none
  | steps + 1, lengths, r =>
    if total ≤ lengths.size then some (lengths, r)
    else do
      let (symbol, r) ← code.symbol? BitReader.bit? r
      if symbol < 16 then wordLengths code total steps (lengths.push symbol) r
      else
        let (value, least, extra) ←
          if symbol = 16 then lengths.back?.map (·, 3, 2)
          else if symbol = 17 then some (0, 3, 3)
          else some (0, 11, 7)
        let (more, r) ← r.bits? extra
        wordLengths code total steps (lengths ++ Array.replicate (least + more) value) r

/-- Reads a list of numbers of three bits. -/
def triples : Nat → BitReader → Option (List Nat × BitReader)
  | 0, r => some ([], r)
  | n + 1, r => do
    let (x, r) ← r.bits? 3
    let (xs, r) ← triples n r
    return (x :: xs, r)

/-- The code of distances may also be empty, or have a single word. -/
def isDistanceCode (code : HuffmanCode) : Bool :=
  code.symbols.isEmpty || decide (code.IsSingle ∨ code.IsComplete)

/-- The codes of literals and distances with some word lengths. The end of a block has a word. -/
def codes? (literals distances : List Nat) : Option (HuffmanCode × HuffmanCode) :=
  let literalCode := HuffmanCode.ofLengths literals
  let distanceCode := HuffmanCode.ofLengths distances
  let hasEnd := literals[256]?.any (· != 0)
  if hasEnd && decide literalCode.IsComplete && isDistanceCode distanceCode then
    some (literalCode, distanceCode)
  else none

/-- Reads the codes of a block that brings its own. -/
def ownCodes? (r : BitReader) : Option ((HuffmanCode × HuffmanCode) × BitReader) := do
  let (literalCount, r) ← r.bits? 5
  let (distanceCount, r) ← r.bits? 5
  let (lengthCount, r) ← r.bits? 4
  let literals := literalCount + 257
  let distances := distanceCount + 1
  let (written, r) ← triples (lengthCount + 4) r
  let inOrder := lengthOrder.zip written
  let code : HuffmanCode :=
    .ofLengths ((List.range 19).map fun symbol => (inOrder.lookup symbol).getD 0)
  let total := literals + distances
  let (lengths, r) ← wordLengths code total (total + 1) #[] r
  if literals ≤ 286 ∧ distances ≤ 30 ∧ code.IsComplete ∧ lengths.size = total then
    let codes ← codes? (lengths.toList.take literals) (lengths.toList.drop literals)
    return (codes, r)
  else none

def storedBlock? (p : Progress) : Option Progress := do
  let (out, r) := p
  let (length, r) ← r.align.bits? 16
  let (complement, r) ← r.bits? 16
  if length + complement = 0xffff then
    let (bytes, r) ← r.bytes? length
    return (out ++ bytes, r)
  else none

/-- Reads a block after its header. -/
def block? (kind : Nat) (p : Progress) : Option Progress :=
  let (out, r) := p
  match kind with
  | 0 => storedBlock? p
  | 1 => symbols fixedLiterals fixedDistances (r.remaining + 1) (out, r)
  | 2 => do
    let ((literals, distances), r) ← ownCodes? r
    symbols literals distances (r.remaining + 1) (out, r)
  | _ => none

/-- Reads blocks up to the last one. -/
def blocks? : Nat → Progress → Option Progress
  | 0, _ => none
  | steps + 1, (out, r) => do
    let (last, r) ← r.bits? 1
    let (kind, r) ← r.bits? 2
    let p ← block? kind (out, r)
    if last = 1 then return p else blocks? steps p

/-- The data in a container with a header of two bytes and a checksum of four, which is not used. -/
def container? (data : ByteArray) : Option ByteArray := do
  let method ← data[0]?
  let flags ← data[1]?
  let header := 256 * method.toNat + flags.toNat
  if method.toNat % 16 = 8 ∧ method.toNat / 16 ≤ 7 ∧ header % 31 = 0 ∧ flags.toNat / 32 % 2 = 0 then
    let (out, r) ← blocks? (8 * data.size + 1) (ByteArray.empty, ⟨data, 16⟩)
    let (_, _) ← r.align.bytes? 4
    return out
  else none

end Xps.Inflate
