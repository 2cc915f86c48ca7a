import Xps.Geometry.Rect
import Xps.Geometry.Size

/-!
# Outlines inside of a canvas

Only the rows of an outline that lie on the canvas are filled, and lines are cut to the canvas
before they are placed on the grid. What lies on the left or on the right of the canvas is moved
onto its side, so that the outline goes around the same cells as before.
-/

namespace Xps.Canvas

/-! ## Filled rows -/

/-- An outline without a width or a height has nothing to fill. -/
def isThin (bounds : Rect) : Bool :=
  let isNearlyZero (x : Float32) : Bool := x.abs ≤ 1 / 4096
  isNearlyZero bounds.width || isNearlyZero bounds.height

/-- Outlines with sides beyond a quarter of the largest number are not filled. -/
def isTooFar (bounds : Rect) : Bool :=
  let far := Single.largest * 0.25
  !([bounds.left, bounds.top, bounds.right, bounds.bottom].all fun x => x.abs ≤ far)

/-- The whole numbers of 32 bits. -/
def isWord (n : Int) : Bool := n == n.bmod (2 ^ 32)

/-- The nearest whole number that single precision and 32 bits can hold. -/
def saturate (n : Int) : Int := max (-2147483520) (min 2147483520 n)

/-- The pixels from one side of an outline to the other, if they can be counted. -/
def pixelSpan? (low high : Float32) : Option (Int × Int) :=
  let first := (Single.toRat low).floor
  let length := Single.ofInt (Single.toRat high).ceil - Single.ofInt first
  let start := saturate first
  let stop := start + max 1 (saturate (Single.toRat length).ceil)
  if isWord stop then some (start, stop) else none

/-- The pixels whose centers may lie between two sides, with a little room for rounding. -/
def centerSpan? (low high : Float32) : Option (Int × Int) :=
  let room : Rat := 67 / 128
  let clamp (n : Int) : Int := max (-(2 ^ 31)) (min (2 ^ 31 - 1) n)
  let start := clamp (Single.toRat low - room).ceil
  let stop := clamp (Single.toRat high + room).floor
  if start < stop ∧ isWord (stop - start) then some (start, stop) else none

/-- A span and the pixels of a side of the canvas have some in common. -/
def meets (span : Int × Int) (length : Int) : Bool := max 0 span.1 < min length span.2

/--
The first row of cells of a canvas that is filled, and the row behind the last one, with `side` rows
for each pixel. The rows of an outline are counted with 32 bits.
-/
def filledRows? (size : PixelSize) (isSmooth : Bool) (side : Nat) (bounds : Rect) :
    Option (Int × Int) := do
  let row (pixel : Int) : Int := (side * pixel).bmod (2 ^ 32)
  let span? := if isSmooth then pixelSpan? else centerSpan?
  let columns ← span? bounds.left bounds.right
  let rows ← span? bounds.top bounds.bottom
  if isThin bounds || isTooFar bounds then none
  else if isSmooth && !(meets columns size.width && meets rows size.height) then none
  else return (max 0 (row rows.1), min (side * size.height) (row rows.2))

/-! ## Lines on the canvas -/

/-- A number moved between two others, whatever their order. -/
def pin (x a b : Float) : Float :=
  let low := if b < a then b else a
  let high := if b < a then a else b
  if x < low then low else if high < x then high else x

/-- The second coordinate of a line where the first one is `u`. The middle, if the line stays near
one first coordinate. -/
def crossing (u₀ v₀ u₁ v₁ u : Float32) : Float32 :=
  if (u₁ - u₀).abs ≤ 1 / 4096 then (v₀ + v₁) * 0.5
  else
    let a := Single.widen u₀
    let b := Single.widen v₀
    let c := Single.widen u₁
    let d := Single.widen v₁
    Single.narrow (pin (b + (Single.widen u - a) * (d - b) / (c - a)) b d)

/-- The part of a line in the rows of a canvas. -/
def chop? (height : Float32) (p q : Point) : Option (Point × Point) :=
  if (p.y ≤ 0 ∧ q.y ≤ 0) ∨ (height ≤ p.y ∧ height ≤ q.y) then none
  else
    let pointAt (y : Float32) : Point := ⟨crossing p.y p.x q.y q.x y, y⟩
    let chopEnd (r : Point) : Point :=
      if r.y < 0 then pointAt 0 else if height < r.y then pointAt height else r
    some (chopEnd p, chopEnd q)

/-- The corner between the part of a line beside the canvas and the part on it, behind an end that
is moved onto a side. -/
def corners (width : Float32) (p q r : Point) : List Point :=
  let corner (x : Float32) : List Point := [⟨x, r.y⟩, ⟨x, crossing p.x p.y q.x q.y x⟩]
  if r.x < 0 then corner 0 else if width < r.x then corner width else [r]

/-- The lines that stand for a line on a canvas. -/
def clip (size : PixelSize) (line : Point × Point) : List (Point × Point) :=
  let width := Single.ofNat size.width
  match chop? (Single.ofNat size.height) line.1 line.2 with
  | some (p, q) =>
    let points := corners width p q p ++ (corners width p q q).reverse
    points.zip points.tail
  | none => []

end Xps.Canvas
