import Xps.Geometry.Transform

/-!
# Rectangles

Rectangles by their sides, the smallest one around a list of points, and rectangles by corner and
size that have an area.
-/

namespace Xps

structure Rect where
  left : Float32
  top : Float32
  right : Float32
  bottom : Float32
deriving Inhabited

namespace Rect

def width (r : Rect) : Float32 := r.right - r.left

def height (r : Rect) : Float32 := r.bottom - r.top

/-- The length of a side in double precision stays below the largest number. -/
def hasSpan (low high : Float32) : Bool :=
  Single.widen high - Single.widen low < Single.widen Single.largest

/-- The bounding box of points, with the sides of `r` as a start. -/
def cover (r : Rect) (points : List Point) : Rect :=
  points.foldl (fun r p =>
    ⟨Single.min r.left p.x, Single.min r.top p.y,
      Single.max r.right p.x, Single.max r.bottom p.y⟩) r

/-- The smallest rectangle around finite points that are not too far apart. -/
def enclosing? : List Point → Option Rect
  | [] => none
  | p :: ps =>
    let r := cover ⟨p.x, p.y, p.x, p.y⟩ ps
    if (p :: ps).all Point.isFinite && hasSpan r.left r.right && hasSpan r.top r.bottom then some r
    else none

/-- The rectangle of a corner and a size, if it has an area. -/
def ofCorner? (x y width height : Float32) : Option Rect :=
  let r : Rect := ⟨x, y, width + x, height + y⟩
  if Point.isFinite ⟨r.left, r.top⟩ && Point.isFinite ⟨r.right, r.bottom⟩
      && r.left < r.right && r.top < r.bottom
      && hasSpan r.left r.right && hasSpan r.top r.bottom then some r
  else none

end Rect

end Xps
