import Xps.Bytes
import Xps.Font.GlyphProgram.Shape
import Xps.Number.Single

/-!
# Instructions of glyph programs

A program is a list of bytes. An instruction takes its first byte, and the numbers and the rarer
shapes take more of them.
-/

namespace Xps.GlyphProgram

inductive Instruction
  | number (x : Float32)
  /-- Declares stems, which only change how a glyph is fitted to dots. -/
  | stems
  /-- Chooses among the stems, with a bit for each of them. -/
  | mask
  | move
  | moveAlong (axis : Axis)
  | draw (shape : Shape)
  | call (isGlobal : Bool)
  /-- The end of a routine. -/
  | back
  | finish

namespace Instruction

/-- The instruction of a byte, if it takes no other byte. -/
def ofByte? (byte : Nat) : Option Instruction :=
  match byte with
  | 1 | 3 | 18 | 23 => some stems
  | 4 => some (moveAlong .up)
  | 5 => some (draw .lines)
  | 6 => some (draw (.steps .across))
  | 7 => some (draw (.steps .up))
  | 8 => some (draw .curves)
  | 10 => some (call false)
  | 11 => some back
  | 14 => some finish
  | 19 | 20 => some mask
  | 21 => some move
  | 22 => some (moveAlong .across)
  | 24 => some (draw .curvesLine)
  | 25 => some (draw .linesCurve)
  | 26 => some (draw (.waves .up))
  | 27 => some (draw (.waves .across))
  | 29 => some (call true)
  | 30 => some (draw (.turns .up))
  | 31 => some (draw (.turns .across))
  | _ => if 32 ≤ byte ∧ byte ≤ 246 then some (number (Single.ofInt (byte - 139))) else none

/-- The rarer shapes, by their second byte. -/
def flex? (byte : Nat) : Option Instruction :=
  match byte with
  | 34 => some (draw .flatFlex)
  | 35 => some (draw .flex)
  | 36 => some (draw .slopedFlex)
  | 37 => some (draw .shortFlex)
  | _ => none

/-- The instruction that begins with a byte, and how many more bytes it takes. -/
def ofBytes? (byte : Nat) (more : ByteArray) : Option (Instruction × Nat) :=
  if byte = 12 then ((Bytes.byte? more 0).bind flex?).map (·, 1)
  else if byte = 28 then (Bytes.signed16? more 0).map fun n => (number (Single.ofInt n), 2)
  else if byte = 255 then
    (Bytes.word32? more 0).map fun n => (number (Single.ofInt ((n : Int).bmod (2 ^ 32)) / 65536), 4)
  else if 247 ≤ byte ∧ byte ≤ 250 then
    (Bytes.byte? more 0).map fun n =>
      (number (Single.ofInt (256 * ((byte : Int) - 247) + n + 108)), 1)
  else if 251 ≤ byte then
    (Bytes.byte? more 0).map fun n =>
      (number (Single.ofInt (-256 * ((byte : Int) - 251) - n - 108)), 1)
  else (ofByte? byte).map (·, 0)

/-- The first instruction of a program, and what follows it. -/
def read? : List UInt8 → Option (Instruction × List UInt8)
  | [] => none
  | byte :: rest =>
    (ofBytes? byte.toNat ⟨(rest.take 4).toArray⟩).map fun (instruction, more) =>
      (instruction, rest.drop more)

theorem length_lt_of_read? {code rest : List UInt8} {i : Instruction}
    (h : read? code = some (i, rest)) : rest.length < code.length := by
  cases code with
  | nil => cases h
  | cons byte bytes =>
    obtain ⟨⟨instruction, more⟩, _, h⟩ := Option.map_eq_some_iff.1 h
    obtain ⟨_, rfl⟩ := Prod.mk.inj h
    simp only [List.length_drop, List.length_cons]
    omega

end Instruction

end Xps.GlyphProgram
