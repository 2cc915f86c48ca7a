import Xps.Canvas.Basic

/-!
# Edges on a grid

The straight edges of an outline on a grid of cells. A cell lies inside of an outline when its
center does. Places are kept in 64ths of a cell, and the slope of an edge in 65536ths.
-/

namespace Xps.Canvas

/-! ## Outlines as polygons -/

/-- The point at a share `t` of the way between two points. -/
def between (p q : Point) (t : Float32) : Point :=
  ⟨p.x + (q.x - p.x) * t, p.y + (q.y - p.y) * t⟩

def quadratic (p c q : Point) (t : Float32) : Point :=
  between (between p c t) (between c q t) t

def cubic (p c₁ c₂ q : Point) (t : Float32) : Point :=
  between (quadratic p c₁ c₂ t) (quadratic c₁ c₂ q t) t

/-- How many straight lines stand for a curve. -/
def curveLines : Nat := 32

/-- The lines between points of a curve at equal shares. -/
def polyline (curve : Float32 → Point) : List (Point × Point) :=
  let point (k : Nat) : Point := curve (Single.ofNat k / Single.ofNat curveLines)
  (List.range curveLines).map fun k => (point k, point (k + 1))

/-- The lines of an outline from the point `p` on, of a contour that begins at `start`. -/
def linesFrom (start p : Point) : List OutlineStep → List (Point × Point)
  | [] => [(p, start)]
  | .move q :: steps => (p, start) :: linesFrom q q steps
  | .line q :: steps => (p, q) :: linesFrom start q steps
  | .quad c q :: steps => polyline (quadratic p c q) ++ linesFrom start q steps
  | .cubic c₁ c₂ q :: steps => polyline (cubic p c₁ c₂ q) ++ linesFrom start q steps
  | .close :: steps => (p, start) :: linesFrom start start steps

/-- The lines around the inside of an outline. Every contour returns to its start. -/
def lines (steps : List OutlineStep) : List (Point × Point) := linesFrom .zero .zero steps

/-! ## Edges -/

/-- A line that passes the centers of some rows. -/
structure Edge where
  /-- The first row. -/
  top : Int
  /-- The row behind the last one. -/
  bottom : Int
  /-- Where the line passes the center of the first row, in 65536ths of a cell. -/
  x : Int
  /-- What it goes to the right with each row, in 65536ths of a cell. -/
  slope : Int
  /-- One for a line that points down, and minus one for a line that points up. -/
  turn : Int

namespace Edge

/-- The row whose center is nearest below a place in 64ths of a cell. -/
def nearestRow (y : Int) : Int := (y + 32) / 64

/-- The edge between two places in 64ths of a cell, the first one above the second one. -/
def descending? (turn x₀ y₀ x₁ y₁ : Int) : Option Edge :=
  let top := nearestRow y₀
  let bottom := nearestRow y₁
  if top = bottom then none
  else
    let slope := (65536 * (x₁ - x₀)).tdiv (y₁ - y₀)
    let x := 1024 * (x₀ + slope * (64 * top + 32 - y₀) / 65536)
    some { top, bottom, x, slope, turn }

/-- The edge of a line on a grid with some cells for each unit, if it passes the center of a row. -/
def ofLine? (cells : Float32) (line : Point × Point) : Option Edge :=
  let place (x : Float32) : Int := Single.truncate (x * (64 * cells))
  let (p, q) := line
  if place p.y ≤ place q.y then descending? 1 (place p.x) (place p.y) (place q.x) (place q.y)
  else descending? (-1) (place q.x) (place q.y) (place p.x) (place p.y)

/-- The edge passes the row of a cell on its left. -/
def isLeftOf (e : Edge) (column row : Int) : Bool :=
  e.top ≤ row && row < e.bottom && (e.x + e.slope * (row - e.top) + 32768) / 65536 ≤ column

end Edge

/-- How often edges go around a cell. -/
def turns (edges : List Edge) (column row : Int) : Int :=
  ((edges.filter fun e => e.isLeftOf column row).map Edge.turn).foldr (· + ·) 0

/-- Edges that go around a cell have it inside. -/
def isInside (rule : FillRule) (edges : List Edge) (column row : Int) : Bool :=
  match rule with
  | .evenOdd => turns edges column row % 2 != 0
  | .winding => turns edges column row != 0

end Xps.Canvas
