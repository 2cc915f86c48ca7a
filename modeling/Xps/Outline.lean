import Xps.Geometry.Rect

/-!
# Outlines

An outline is a list of moves, lines, curves and closes with a bounding box. The pen that draws it
adds the moves that are left out: after a close, and at the beginning.
-/

namespace Xps

/-- Which points an outline surrounds. -/
inductive FillRule
  | evenOdd
  | winding
deriving DecidableEq

inductive OutlineStep
  | move (p : Point)
  | line (p : Point)
  | quad (control p : Point)
  | cubic (control₁ control₂ p : Point)
  | close

namespace OutlineStep

def points : OutlineStep → List Point
  | move p => [p]
  | line p => [p]
  | quad c p => [c, p]
  | cubic c₁ c₂ p => [c₁, c₂, p]
  | close => []

def transform (t : Transform) : OutlineStep → OutlineStep
  | move p => move (t.map p)
  | line p => line (t.map p)
  | quad c p => quad (t.map c) (t.map p)
  | cubic c₁ c₂ p => cubic (t.map c₁) (t.map c₂) (t.map p)
  | close => close

end OutlineStep

/-- At least two steps, around which there is a rectangle. -/
structure Outline where
  steps : List OutlineStep
  bounds : Rect
  bounds_eq : Rect.enclosing? (steps.flatMap OutlineStep.points) = some bounds

namespace Outline

def points (o : Outline) : List Point := o.steps.flatMap OutlineStep.points

/-- Any steps that have bounds. -/
def bounded? (steps : List OutlineStep) : Option Outline :=
  match h : Rect.enclosing? (steps.flatMap OutlineStep.points) with
  | some bounds => some ⟨steps, bounds, h⟩
  | none => none

/-- A drawn outline. A single step draws nothing. -/
def ofSteps? (steps : List OutlineStep) : Option Outline :=
  if steps.length ≤ 1 then none else bounded? steps

def transform? (t : Transform) (o : Outline) : Option Outline :=
  if t.isIdentity then some o else bounded? (o.steps.map (·.transform t))

end Outline

/-- What a pen has drawn so far, the latest step first. -/
structure Pen where
  drawn : List OutlineStep := []
  /-- The point of the last move. -/
  start : Point := .zero
  /-- A curve or line has to move to the start first. -/
  lifted : Bool := true

namespace Pen

def steps (p : Pen) : List OutlineStep := p.drawn.reverse

/-- A move right after a move takes its place. -/
def move (pen : Pen) (p : Point) : Pen :=
  match pen.drawn with
  | .move _ :: drawn => { pen with drawn := .move p :: drawn, start := p }
  | drawn => { drawn := .move p :: drawn, start := p, lifted := false }

/-- Puts a lifted pen down at the point of the last move. -/
def lower (pen : Pen) : Pen := if pen.lifted then pen.move pen.start else pen

def draw (pen : Pen) (step : OutlineStep) : Pen :=
  let pen := pen.lower
  { pen with drawn := step :: pen.drawn }

def line (pen : Pen) (p : Point) : Pen := pen.draw (.line p)

def quad (pen : Pen) (c p : Point) : Pen := pen.draw (.quad c p)

def cubic (pen : Pen) (c₁ c₂ p : Point) : Pen := pen.draw (.cubic c₁ c₂ p)

/-- A close at the beginning or after a close draws nothing, and lifts the pen all the same. -/
def close (pen : Pen) : Pen :=
  match pen.drawn with
  | [] | .close :: _ => { pen with lifted := true }
  | drawn => { pen with drawn := .close :: drawn, lifted := true }

/-- Draws a step. -/
def trace (pen : Pen) : OutlineStep → Pen
  | .move p => pen.move p
  | .line p => pen.line p
  | .quad c p => pen.quad c p
  | .cubic c₁ c₂ p => pen.cubic c₁ c₂ p
  | .close => pen.close

/-- The point that the next step starts from. -/
def position (pen : Pen) : Point :=
  match pen.drawn with
  | .move p :: _ | .line p :: _ | .quad _ p :: _ | .cubic _ _ p :: _ => p
  | _ => pen.start

def finish? (pen : Pen) : Option Outline := Outline.ofSteps? pen.steps

end Pen

end Xps
