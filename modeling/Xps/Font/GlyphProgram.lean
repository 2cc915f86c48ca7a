import Xps.Font.CompactFont
import Xps.Font.GlyphProgram.Instruction

/-!
# Glyph programs

A program collects numbers and draws shapes with them. It may call routines of its font, and it may
end with two other glyphs, an accent on top of a base.
-/

namespace Xps.GlyphProgram

structure State where
  drawing : Drawing := {}
  /-- The numbers that wait for an operator, the oldest first. -/
  numbers : List Float32 := []
  /-- The glyph has moved to a first point. -/
  hasMoved : Bool := false
  /-- There is a contour to close. -/
  isOpen : Bool := false
  /-- The width of the glyph has been read, in front of the numbers of an operator. -/
  hasWidth : Bool := false
  stems : Nat := 0
  isComposed : Bool := false
  hasEnded : Bool := false

/-- How many numbers can wait for an operator. -/
def maxNumbers : Nat := 48

/-- How deep routines may be called. -/
def maxDepth : Nat := 10

namespace State

def push? (s : State) (x : Float32) : Option State :=
  if s.numbers.length < maxNumbers then some { s with numbers := s.numbers ++ [x] } else none

/-- The last number, which is taken away. -/
def pop? (s : State) : Option (Float32 × State) := do
  return (← s.numbers.getLast?, { s with numbers := s.numbers.dropLast })

def close (s : State) : State :=
  if s.isOpen then { s with drawing := s.drawing.close, isOpen := false } else s

/-- A stem takes two numbers, and an odd one in front is the width. -/
def countStems (s : State) : State :=
  { s with
    numbers := []
    hasWidth := s.hasWidth || s.numbers.length % 2 == 1
    stems := s.stems + s.numbers.length / 2 }

/-- Goes to the start of a new contour. -/
def start (s : State) (dx dy : Float32) : State :=
  { s with
    drawing := s.close.drawing.moveBy dx dy
    numbers := []
    hasMoved := true
    isOpen := true }

/-- A number more than needed is the width. -/
def move? (s : State) : Option State :=
  match s.numbers with
  | [dx, dy] => some (s.start dx dy)
  | [_, dx, dy] => some (start { s with hasWidth := true } dx dy)
  | _ => none

def moveAlong? (s : State) (axis : Axis) : Option State :=
  let start (s : State) (distance : Float32) : State :=
    match axis with
    | .across => s.start distance 0
    | .up => s.start 0 distance
  match s.numbers with
  | [distance] => some (start s distance)
  | [_, distance] => some (start { s with hasWidth := true } distance)
  | _ => none

def draw? (s : State) (shape : Shape) : Option State := do
  if s.hasMoved then return { s with drawing := ← shape.draw? s.drawing s.numbers, numbers := [] }
  else none

end State

/-! ## Routines -/

/-- What is added to the number of a routine, so that the common ones have short numbers. -/
def bias (routineCount : Nat) : Nat :=
  if routineCount < 1240 then 107 else if routineCount < 33900 then 1131 else 32768

/-- The routine that the last number tells. -/
def routine? (routines : DataIndex) (s : State) : Option (ByteArray × State) := do
  let (number, s) ← s.pop?
  let index := Single.truncate number + bias routines.size
  if index < 0 then none else return (← routines.get? index.toNat, s)

/-- The program of a glyph that has a code in the standard encoding. -/
def encoded? (font : CompactFont) (code : Float32) : Option ByteArray := do
  let n := Single.truncate code
  if n < 0 ∨ 255 < n then none else font.programs.get? (← font.names.glyph? n.toNat)

/-! ## Runs -/

/-- A way to run other code. -/
abbrev Call := List UInt8 → State → Option State

/-- Draws a base and an accent, if the last numbers tell them and the place of the accent. A number
in front of them is the width. -/
def compose? (call : Call) (font : CompactFont) (s : State) : Option State := do
  let waiting := s.numbers.length
  if waiting = 4 ∨ (!s.hasWidth ∧ waiting = 5) then
    let (accent, s) ← s.pop?
    let accent ← encoded? font accent
    let (base, s) ← s.pop?
    let base ← encoded? font base
    let (y, s) ← s.pop?
    let (x, s) ← s.pop?
    let s := { s with numbers := [], hasWidth := s.hasWidth || waiting == 5, isComposed := true }
    let s ← call base.toList s
    call accent.toList { s with drawing := { s.drawing with x, y } }
  else if waiting = 1 ∧ !s.hasWidth then return { s with numbers := [], hasWidth := true }
  else return s

/-- The state after an instruction, and how many of the `left` bytes behind it are skipped. -/
def perform? (call : Call) (font : CompactFont) (left : Nat) (s : State) :
    Instruction → Option (State × Nat)
  | .number x => (s.push? x).map (·, 0)
  | .stems => some (s.countStems, 0)
  | .mask => some (s.countStems, (s.countStems.stems + 7) / 8)
  | .move => s.move?.map (·, 0)
  | .moveAlong axis => (s.moveAlong? axis).map (·, 0)
  | .draw shape => (s.draw? shape).map (·, 0)
  | .call isGlobal => do
    let (routine, s) ← routine? (if isGlobal then font.globalRoutines else font.localRoutines) s
    let s ← call routine.toList s
    if s.hasEnded ∧ !s.isComposed ∧ left ≠ 0 then none else return (s, 0)
  | .back => some (s, left)
  | .finish => do
    let s ← compose? call font s
    if left = 0 then return ({ s.close with hasEnded := true }, 0) else none

/-- Runs code up to its end. -/
def runWith? (call : Call) (font : CompactFont) (code : List UInt8) (s : State) : Option State :=
  match _h : Instruction.read? code with
  | none => if code.isEmpty then some s else none
  | some (instruction, rest) =>
    match perform? call font rest.length s instruction with
    | some (s, skipped) => runWith? call font (rest.drop skipped) s
    | none => none
termination_by code.length
decreasing_by
  have := Instruction.length_lt_of_read? _h
  simp only [List.length_drop]
  omega

/-- Runs code that may call other code at some depth. -/
def run? (font : CompactFont) : Nat → Call
  | 0 => runWith? (fun _ _ => none) font
  | depth + 1 => runWith? (run? font depth) font

/-- The steps of a glyph, if its program comes to an end. -/
def steps? (font : CompactFont) (glyph : Nat) : Option (List OutlineStep) := do
  let program ← font.programs.get? glyph
  let s ← run? font maxDepth program.toList {}
  if s.hasEnded then return s.drawing.drawn.reverse else none

end Xps.GlyphProgram
