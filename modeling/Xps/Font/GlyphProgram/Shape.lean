import Xps.Outline

/-!
# Shapes of glyph programs

A glyph program draws lines and curves by how far each point lies from the one before. The shapes
differ in which of these distances are left out because they are zero.
-/

namespace Xps.GlyphProgram

/-- What has been drawn, the latest step first, and where the drawing goes on. -/
structure Drawing where
  x : Float32 := 0
  y : Float32 := 0
  drawn : List OutlineStep := []

namespace Drawing

def moveBy (d : Drawing) (dx dy : Float32) : Drawing :=
  let x := d.x + dx
  let y := d.y + dy
  { x, y, drawn := .move ⟨x, y⟩ :: d.drawn }

def lineBy (d : Drawing) (dx dy : Float32) : Drawing :=
  let x := d.x + dx
  let y := d.y + dy
  { x, y, drawn := .line ⟨x, y⟩ :: d.drawn }

def curveTo (d : Drawing) (p q r : Point) : Drawing where
  x := r.x
  y := r.y
  drawn := .cubic p q r :: d.drawn

def curveBy (d : Drawing) (dx₁ dy₁ dx₂ dy₂ dx₃ dy₃ : Float32) : Drawing :=
  let p : Point := ⟨d.x + dx₁, d.y + dy₁⟩
  let q : Point := ⟨p.x + dx₂, p.y + dy₂⟩
  d.curveTo p q ⟨q.x + dx₃, q.y + dy₃⟩

def close (d : Drawing) : Drawing := { d with drawn := .close :: d.drawn }

end Drawing

/-- The axis that a line or a curve begins along. -/
inductive Axis
  | across
  | up
deriving DecidableEq

namespace Axis

def other : Axis → Axis
  | across => up
  | up => across

end Axis

inductive Shape
  | lines
  /-- Lines along both axes by turns. -/
  | steps (first : Axis)
  | curves
  | curvesLine
  | linesCurve
  /-- Curves that begin and end along the same axis. -/
  | waves (along : Axis)
  /-- Curves that begin along an axis and end along the other, by turns. -/
  | turns (first : Axis)
  | flex
  /-- Two curves that end where they began, but for their distance across. -/
  | flatFlex
  /-- The same, with ends that slope. -/
  | slopedFlex
  /-- Two curves that end where they began, but for the longer of both distances. -/
  | shortFlex

namespace Shape

def lines? (d : Drawing) : List Float32 → Option Drawing
  | [] => some d
  | dx :: dy :: rest => lines? (d.lineBy dx dy) rest
  | _ => none

def drawSteps (d : Drawing) : Axis → List Float32 → Drawing
  | _, [] => d
  | .across, dx :: rest => drawSteps (d.lineBy dx 0) .up rest
  | .up, dy :: rest => drawSteps (d.lineBy 0 dy) .across rest

def curves? (d : Drawing) : List Float32 → Option Drawing
  | [] => some d
  | dx₁ :: dy₁ :: dx₂ :: dy₂ :: dx₃ :: dy₃ :: rest =>
    curves? (d.curveBy dx₁ dy₁ dx₂ dy₂ dx₃ dy₃) rest
  | _ => none

def wave (d : Drawing) (along : Axis) (start dx dy stop : Float32) : Drawing :=
  match along with
  | .across => d.curveBy start 0 dx dy stop 0
  | .up => d.curveBy 0 start dx dy 0 stop

def waves? (d : Drawing) (along : Axis) : List Float32 → Option Drawing
  | [] => some d
  | start :: dx :: dy :: stop :: rest => waves? (wave d along start dx dy stop) along rest
  | _ => none

/-- A curve from an axis to the other, which ends `beside` it. -/
def turn (d : Drawing) (first : Axis) (start dx dy stop beside : Float32) : Drawing :=
  match first with
  | .across => d.curveBy start 0 dx dy beside stop
  | .up => d.curveBy 0 start dx dy stop beside

/-- Only the last one of the curves may end beside its axis. -/
def turns? (d : Drawing) (first : Axis) : List Float32 → Option Drawing
  | [] => some d
  | [start, dx, dy, stop, beside] => some (turn d first start dx dy stop beside)
  | start :: dx :: dy :: stop :: rest => turns? (turn d first start dx dy stop 0) first.other rest
  | _ => none

/-- Draws a shape. The numbers have to be as many as it needs. -/
def draw? (d : Drawing) (numbers : List Float32) : Shape → Option Drawing
  | lines => lines? d numbers
  | steps first => if numbers.isEmpty then none else some (drawSteps d first numbers)
  | curves => curves? d numbers
  | curvesLine => do
    if numbers.length < 8 then none
    else
      let count := numbers.length - 2
      lines? (← curves? d (numbers.take count)) (numbers.drop count)
  | linesCurve => do
    if numbers.length < 8 then none
    else
      let count := numbers.length - 6
      curves? (← lines? d (numbers.take count)) (numbers.drop count)
  | waves along =>
    match numbers.length % 2, along, numbers with
    | 1, .across, dy :: rest => waves? { d with y := d.y + dy } along rest
    | 1, .up, dx :: rest => waves? { d with x := d.x + dx } along rest
    | _, _, _ => waves? d along numbers
  | turns first => if numbers.isEmpty then none else turns? d first numbers
  | flex =>
    match numbers with
    | [dx₁, dy₁, dx₂, dy₂, dx₃, dy₃, dx₄, dy₄, dx₅, dy₅, dx₆, dy₆, _] =>
      some ((d.curveBy dx₁ dy₁ dx₂ dy₂ dx₃ dy₃).curveBy dx₄ dy₄ dx₅ dy₅ dx₆ dy₆)
    | _ => none
  | flatFlex =>
    match numbers with
    | [dx₁, dx₂, dy₂, dx₃, dx₄, dx₅, dx₆] =>
      let middle := d.curveBy dx₁ 0 dx₂ dy₂ dx₃ 0
      let p : Point := ⟨middle.x + dx₄, middle.y⟩
      let q : Point := ⟨p.x + dx₅, d.y⟩
      some (middle.curveTo p q ⟨q.x + dx₆, d.y⟩)
    | _ => none
  | slopedFlex =>
    match numbers with
    | [dx₁, dy₁, dx₂, dy₂, dx₃, dx₄, dx₅, dy₅, dx₆] =>
      let middle := d.curveBy dx₁ dy₁ dx₂ dy₂ dx₃ 0
      let p : Point := ⟨middle.x + dx₄, middle.y⟩
      let q : Point := ⟨p.x + dx₅, p.y + dy₅⟩
      some (middle.curveTo p q ⟨q.x + dx₆, d.y⟩)
    | _ => none
  | shortFlex =>
    match numbers with
    | [dx₁, dy₁, dx₂, dy₂, dx₃, dy₃, dx₄, dy₄, dx₅, dy₅, last] =>
      let middle := d.curveBy dx₁ dy₁ dx₂ dy₂ dx₃ dy₃
      let p : Point := ⟨middle.x + dx₄, middle.y + dy₄⟩
      let q : Point := ⟨p.x + dx₅, p.y + dy₅⟩
      let isWide := (q.y - d.y).abs < (q.x - d.x).abs
      some (middle.curveTo p q (if isWide then ⟨q.x + last, d.y⟩ else ⟨d.x, q.y + last⟩))
    | _ => none

end Shape

end Xps.GlyphProgram
