import Xps.Bytes
import Xps.Number.Decimal

/-!
# Compact fonts

A compact font holds a program for each glyph, common routines, and the names of the glyphs. Its
parts are indexes of data and dictionaries of numbers, which give the places of each other.
-/

namespace Xps

/-! ## Indexes -/

/-- A list of data. A member whose place makes no sense is missing. -/
abbrev DataIndex := Array (Option ByteArray)

namespace DataIndex

/-- A number of some bytes. -/
def number? (data : ByteArray) (offset : Nat) : Nat → Option Nat
  | 0 => some 0
  | n + 1 => do
    let high ← Bytes.byte? data offset
    let low ← number? data (offset + 1) n
    return high * 256 ^ n + low

/-- The index at a place, and what follows it. Places count from one. -/
def read? (data : ByteArray) (offset : Nat) : Option (DataIndex × Nat) := do
  let count ← Bytes.word16? data offset
  if count = 0 then return (#[], offset + 2)
  else
    let size ← Bytes.byte? data (offset + 2)
    let places ← Bytes.slice? data (offset + 3) (size * (count + 1))
    let start := offset + 3 + size * (count + 1)
    let place? (k : Nat) : Option Nat := do
      let n ← number? places (size * k) size
      if n = 0 then none else return n - 1
    if size = 0 ∨ 4 < size then none
    else
      match place? count with
      | none => return (#[], start)
      | some length =>
        let content ← Bytes.slice? data start length
        let member? (k : Nat) : Option ByteArray := do
          let first ← place? k
          let last ← place? (k + 1)
          if first ≤ last then Bytes.slice? content first (last - first) else none
        return (((List.range count).map member?).toArray, start + length)

def get? (i : DataIndex) (k : Nat) : Option ByteArray := i[k]?.join

end DataIndex

/-! ## Dictionaries -/

namespace CompactFont

/-- An operator of a dictionary. An operator of two bytes has a number above all others. -/
def isOperator (byte : Nat) : Bool := byte ≤ 27 || byte == 31 || byte == 255

/-- The half bytes of a decimal number, up to one with all bits set, and what follows. -/
def decimalDigits : List UInt8 → List Nat × List UInt8
  | [] => ([], [])
  | byte :: rest =>
    let high := byte.toNat / 16
    let low := byte.toNat % 16
    if high = 15 then ([], rest)
    else if low = 15 then ([high], rest)
    else
      let (more, rest) := decimalDigits rest
      (high :: low :: more, rest)

theorem length_decimalDigits_le (s : List UInt8) : (decimalDigits s).2.length ≤ s.length := by
  induction s with
  | nil => exact Nat.le_refl _
  | cons byte rest ih =>
    unfold decimalDigits
    dsimp only
    split
    · exact Nat.le_succ _
    · split
      · exact Nat.le_succ _
      · exact Nat.le_succ_of_le ih

/-- What follows a number that begins with a byte. -/
def dropNumber (byte : Nat) (rest : List UInt8) : List UInt8 :=
  if byte = 28 then rest.drop 2
  else if byte = 29 then rest.drop 4
  else if byte = 30 then (decimalDigits rest).2
  else if 247 ≤ byte then rest.drop 1
  else rest

theorem length_dropNumber_le (byte : Nat) (s : List UInt8) :
    (dropNumber byte s).length ≤ s.length := by
  unfold dropNumber
  split
  · exact (List.drop_sublist ..).length_le
  · split
    · exact (List.drop_sublist ..).length_le
    · split
      · exact length_decimalDigits_le s
      · split
        · exact (List.drop_sublist ..).length_le
        · exact Nat.le_refl _

/-- The operators of a dictionary, each with the bytes of the numbers in front of it. -/
def entries (operands : List UInt8) : List UInt8 → List (Nat × List UInt8)
  | [] => []
  | byte :: rest =>
    if byte = 12 then
      match rest with
      | second :: rest => (1200 + second.toNat, operands) :: entries [] rest
      | [] => []
    else if isOperator byte.toNat then (byte.toNat, operands) :: entries [] rest
    else
      let next := dropNumber byte.toNat rest
      entries (operands ++ byte :: rest.take (rest.length - next.length)) next
termination_by s => s.length
decreasing_by
  · simp only [List.length_cons]; omega
  · simp
  · have := length_dropNumber_le byte.toNat rest
    simp only [List.length_cons]
    omega

/-- The texts of half bytes. -/
def decimalText? (digit : Nat) : Option (List Char) :=
  if digit ≤ 9 then some [Nat.digitChar digit]
  else if digit = 10 then some ['.']
  else if digit = 11 then some ['E']
  else if digit = 12 then some ['E', '-']
  else if digit = 14 then some ['-']
  else none

/-- The whole part of a decimal number, which is written with at most 64 characters. -/
def decimal? (digits : List Nat) : Option Int := do
  let text := (← digits.mapM decimalText?).flatten
  let (negative, digits) := Decimal.splitSign text
  let (mantissa, exponent) ← Decimal.scientific? digits
  let x := Float.ofScientific mantissa (exponent < 0) exponent.natAbs
  if 64 < text.length then none else return (if negative then -x else x).toInt32.toInt

/-- A number of a dictionary and what follows it. -/
def operand? : List UInt8 → Option (Int × List UInt8)
  | [] => none
  | byte :: rest =>
    let b := byte.toNat
    let data : ByteArray := ⟨rest.toArray⟩
    if b = 28 then (Bytes.signed16? data 0).map (·, rest.drop 2)
    else if b = 29 then (Bytes.word32? data 0).map fun n => ((n : Int).bmod (2 ^ 32), rest.drop 4)
    else if b = 30 then (decimal? (decimalDigits rest).1).map (·, (decimalDigits rest).2)
    else if 32 ≤ b ∧ b ≤ 246 then some ((b : Int) - 139, rest)
    else if 247 ≤ b ∧ b ≤ 250 then
      (Bytes.byte? data 0).map fun n => (256 * ((b : Int) - 247) + n + 108, rest.drop 1)
    else if 251 ≤ b ∧ b ≤ 254 then
      (Bytes.byte? data 0).map fun n => (-256 * ((b : Int) - 251) - n - 108, rest.drop 1)
    else none

/-- The first numbers in front of an operator, as many as a dictionary may have. -/
def operands? : Nat → List UInt8 → Option (List Int)
  | 0, _ => some []
  | steps + 1, s =>
    if s.isEmpty then some []
    else do
      let (n, rest) ← operand? s
      return n :: (← operands? steps rest)

def maxOperands : Nat := 48

/-- The place that an operator of a dictionary gives. The last one of an operator holds. -/
def places? (dictionary : ByteArray) (operator count : Nat) : Option (List Nat) := do
  let entry ← (entries [] dictionary.toList).reverse.find? fun e => e.1 == operator
  let operands ← operands? maxOperands entry.2
  if operands.length = count ∧ operands.all (0 ≤ ·) then return operands.map Int.toNat else none

def place? (dictionary : ByteArray) (operator : Nat) : Option Nat := do
  (← places? dictionary operator 1).head?

end CompactFont

/-! ## Names of glyphs -/

/-- Which glyph has which name, by the numbers of the names. -/
inductive GlyphNames
  /-- Glyphs in the order of the first standard names. -/
  | standard
  | expert
  | listed (names : List Nat)

namespace GlyphNames

/-- Names of runs of successive numbers, each with its first number and the count of the others. -/
def runs? (data : ByteArray) (width : Nat) : Nat → Nat → Nat → Option (List Nat)
  | 0, _, _ => none
  | steps + 1, offset, left =>
    if left = 0 then some []
    else do
      let first ← Bytes.word16? data offset
      let others ← DataIndex.number? data (offset + 2) width
      if left < others + 1 then none
      else
        let names := (List.range (others + 1)).map (first + ·)
        return names ++ (← runs? data width steps (offset + 2 + width) (left - (others + 1)))

/-- The names of glyphs but the first, which has none. -/
def read? (data : ByteArray) (offset count : Nat) : Option GlyphNames := do
  let names ←
    match ← Bytes.byte? data offset with
    | 0 => (List.range count).mapM fun k => Bytes.word16? data (offset + 1 + 2 * k)
    | 1 => runs? data 1 (count + 1) (offset + 1) count
    | 2 => runs? data 2 (count + 1) (offset + 1) count
    | _ => none
  return listed names

/-- The names of the codes of the standard encoding from 161 on. -/
def upperNames : List Nat :=
  let run (first last : Nat) : List Nat := (List.range (last + 1 - first)).map (first + ·)
  run 96 110 ++ [0] ++ run 111 114 ++ [0] ++ run 115 122 ++ [0, 123, 0] ++ run 124 131 ++ [0]
    ++ run 132 133 ++ [0] ++ run 134 137 ++ List.replicate 16 0 ++ [138, 0, 139, 0, 0, 0, 0]
    ++ run 140 143 ++ [0, 0, 0, 0, 0, 144, 0, 0, 0, 145, 0, 0] ++ run 146 149

/-- The name of a code of the standard encoding. -/
def standardName (code : Nat) : Nat :=
  if 32 ≤ code ∧ code ≤ 126 then code - 31
  else if 161 ≤ code then upperNames.getD (code - 161) 0
  else 0

/-- The glyph of a code of the standard encoding. -/
def glyph? (names : GlyphNames) (code : Nat) : Option Nat :=
  let name := standardName code
  match names with
  | standard => if code ≤ 228 then some name else none
  | expert => none
  | listed names => if name = 0 then some 0 else (names.idxOf? name).map (· + 1)

end GlyphNames

/-! ## Fonts -/

structure CompactFont where
  programs : DataIndex
  globalRoutines : DataIndex
  localRoutines : DataIndex
  names : GlyphNames

namespace CompactFont

/-- The local routines of the private part of a font, if there is one. -/
def localRoutines? (data dictionary : ByteArray) : Option DataIndex :=
  match places? dictionary 18 2 with
  | some [length, start] => do
    let part ← Bytes.slice? data start length
    match place? part 19 with
    | some offset => return (← DataIndex.read? data (start + offset)).1
    | none => return #[]
  | _ => some #[]

/-- The names of the glyphs of a font. -/
def names? (data dictionary : ByteArray) (count : Nat) : Option GlyphNames :=
  match place? dictionary 15 with
  | none | some 0 => some .standard
  | some 1 | some 2 => some .expert
  | some offset => GlyphNames.read? data offset (count - 1)

/-- An encoding of a font is not used, but it has to be whole. -/
def hasEncoding (data dictionary : ByteArray) : Bool :=
  match place? dictionary 16 with
  | none | some 0 | some 1 => true
  | some offset =>
    (do
      let format ← Bytes.byte? data offset
      let count ← Bytes.byte? data (offset + 1)
      let length := if format % 128 = 0 then count else 2 * count
      let _ ← Bytes.slice? data (offset + 2) length
      if 128 ≤ format then
        let more ← Bytes.byte? data (offset + 2 + length)
        let _ ← Bytes.slice? data (offset + 3 + length) (3 * more)
      return decide (format % 128 ≤ 1)) == some true

/-- Reads a font whose glyphs have names, and not numbers of a larger collection. -/
def ofTable? (data : ByteArray) : Option CompactFont := do
  let version ← Bytes.byte? data 0
  let header ← Bytes.byte? data 2
  let (_, offset) ← DataIndex.read? data (Nat.max 4 header)
  let (dictionaries, offset) ← DataIndex.read? data offset
  let dictionary ← dictionaries.get? 0
  let (_, offset) ← DataIndex.read? data offset
  let (globalRoutines, _) ← DataIndex.read? data offset
  let start ← place? dictionary 17
  let (programs, _) ← DataIndex.read? data start
  let names ← names? data dictionary programs.size
  let localRoutines ← localRoutines? data dictionary
  let isCollection := (entries [] dictionary.toList).any fun e => e.1 == 1230
  if version = 1 ∧ start ≠ 0 ∧ 0 < programs.size ∧ !isCollection ∧ hasEncoding data dictionary then
    return { programs, globalRoutines, localRoutines, names }
  else none

end CompactFont

end Xps
