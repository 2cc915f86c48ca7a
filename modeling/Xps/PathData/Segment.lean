import Xps.Outline

/-!
# Path segments

A path is a list of segments in absolute coordinates. Fill rules stand among them. The last one
holds for the whole path, and they separate subpaths just as moves do.
-/

namespace Xps

inductive PathSegment
  | fillRule (rule : FillRule)
  | move (p : Point)
  | line (p : Point)
  | cubic (control₁ control₂ p : Point)
  | quad (control p : Point)
  | close

namespace PathSegment

def isMove : PathSegment → Bool
  | move _ => true
  | _ => false

def fillRule? : PathSegment → Option FillRule
  | fillRule rule => some rule
  | _ => none

def isFillRule (s : PathSegment) : Bool := s.fillRule?.isSome

/-- Draws one segment. A fill rule draws nothing. -/
def draw (pen : Pen) : PathSegment → Pen
  | fillRule _ => pen
  | move p => pen.move p
  | line p => pen.line p
  | cubic c₁ c₂ p => pen.cubic c₁ c₂ p
  | quad c p => pen.quad c p
  | close => pen.close

end PathSegment

structure PathData where
  segments : List PathSegment

namespace PathData

/-- The last fill rule of the path, and even-odd without one. -/
def fillRule (p : PathData) : FillRule :=
  (p.segments.reverse.findSome? PathSegment.fillRule?).getD .evenOdd

/-- The segments from one place up to another one. -/
def slice (p : PathData) (start stop : Nat) : List PathSegment := p.segments.extract start stop

/-- The slices of a path up to some place. -/
structure Slicing where
  /-- Where the open slice begins, if one is open. -/
  start : Option Nat := none
  /-- The slices that are complete. -/
  slices : Array (List PathSegment) := #[]

/-- The slices if the open one ends in front of a place. -/
def Slicing.closed (p : PathData) (stop : Nat) (x : Slicing) : Array (List PathSegment) :=
  match x.start with
  | some start => x.slices.push (p.slice start stop)
  | none => x.slices

/-- Goes on over the segment at a place. -/
def Slicing.step (p : PathData) (x : Slicing) : PathSegment × Nat → Slicing
  | (.fillRule _, i) => { start := none, slices := x.closed p i }
  | (.move _, i) => { start := some i, slices := x.closed p i }
  | (_, i) => { x with start := x.start.or (some i) }

/-- The slices of a path between its moves and its fill rules. -/
def subpaths (p : PathData) : List (List PathSegment) :=
  ((p.segments.zipIdx.foldl (Slicing.step p) {}).closed p p.segments.length).toList

def pen (p : PathData) : Pen := p.segments.foldl PathSegment.draw {}

def outline? (p : PathData) : Option Outline := p.pen.finish?

end PathData

end Xps
