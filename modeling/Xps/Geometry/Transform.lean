import Xps.Number.Single

/-!
# Points and transforms

Affine transforms of the plane. Their product rounds once less where nothing is skewed, and the
identity and pure shifts map points without a multiplication.
-/

namespace Xps

structure Point where
  x : Float32
  y : Float32
deriving Inhabited

namespace Point

def zero : Point := ⟨0, 0⟩

def add (p q : Point) : Point := ⟨p.x + q.x, p.y + q.y⟩

instance : Add Point := ⟨add⟩

/-- The point on the other side of `center`, at the same distance as `p`. -/
def reflect (center p : Point) : Point := ⟨center.x * 2 - p.x, center.y * 2 - p.y⟩

def isFinite (p : Point) : Bool := p.x.isFinite && p.y.isFinite

end Point

/-- Maps `(x, y)` to `(a * x + c * y + e, b * x + d * y + f)`. -/
structure Transform where
  a : Float32
  b : Float32
  c : Float32
  d : Float32
  e : Float32
  f : Float32
deriving Inhabited

namespace Transform

def identity : Transform := ⟨1, 0, 0, 1, 0, 0⟩

def scaling (x y : Float32) : Transform := ⟨x, 0, 0, y, 0, 0⟩

def shift (x y : Float32) : Transform := ⟨1, 0, 0, 1, x, y⟩

def hasSkew (t : Transform) : Bool := t.b != 0 || t.c != 0

def hasScale (t : Transform) : Bool := t.a != 1 || t.d != 1

def isShift (t : Transform) : Bool := !t.hasScale && !t.hasSkew

def isIdentity (t : Transform) : Bool := t.isShift && t.e == 0 && t.f == 0

/-- The transform that applies `t` first and `s` after it. -/
def preConcat (s t : Transform) : Transform :=
  if s.isIdentity then t
  else if t.isIdentity then s
  else if !s.hasSkew && !t.hasSkew then
    ⟨s.a * t.a, 0, 0, s.d * t.d, s.a * t.e + s.e, s.d * t.f + s.f⟩
  else
    { a := Single.sumOfProducts s.a t.a s.c t.b
      b := Single.sumOfProducts s.b t.a s.d t.b
      c := Single.sumOfProducts s.a t.c s.c t.d
      d := Single.sumOfProducts s.b t.c s.d t.d
      e := Single.sumOfProducts s.a t.e s.c t.f + s.e
      f := Single.sumOfProducts s.b t.e s.d t.f + s.f }

def map (t : Transform) (p : Point) : Point :=
  if t.isIdentity then p
  else if t.isShift then ⟨p.x + t.e, p.y + t.f⟩
  else if !t.hasSkew then ⟨p.x * t.a + t.e, p.y * t.d + t.f⟩
  else ⟨p.x * t.a + p.y * t.c + t.e, p.x * t.b + p.y * t.d + t.f⟩

/-- The inverse of a transform without skew whose scales are not zero. -/
def invertScaling (t : Transform) : Transform :=
  if t.isIdentity then t
  else if t.hasScale then
    let x := 1 / t.a
    let y := 1 / t.d
    ⟨x, 0, 0, y, -t.e * x, -t.f * y⟩
  else shift (-t.e) (-t.f)

end Transform

/-- A base transform and the transforms composed onto it, the latest last. -/
structure Frame where
  base : Transform
  composed : List Transform := []

namespace Frame

/-- The transform that a frame stands for. -/
def total (f : Frame) : Transform := f.composed.foldl .preConcat f.base

def compose (f : Frame) (t : Transform) : Frame := { f with composed := f.composed ++ [t] }

@[simp] theorem total_compose (f : Frame) (t : Transform) :
    (f.compose t).total = f.total.preConcat t := by
  simp [total, compose]

end Frame

end Xps
