import Xps.Image.Jpeg.Block
import Xps.Image.Jpeg.Cosine

/-!
# Planes

A plane holds the samples of a component. Where a component has fewer samples than the image has
pixels, its samples are spread: twice as many are interpolated, and more are repeated.
-/

namespace Xps.Jpeg

/-- The blocks of a component in rows, and the samples of each in rows. -/
structure Plane where
  blocksAcross : Nat
  blocks : Array (Array Nat)

namespace Plane

/-- The samples of the coefficients of a component. -/
def ofGrid (frame : Frame) (c : Component) (factors : Array Nat) (grid : Grid) : Plane :=
  ⟨frame.blocksAcross c, grid.map (Cosine.samples · factors)⟩

def sample (p : Plane) (x y : Nat) : Nat :=
  ((p.blocks[y / 8 * p.blocksAcross + x / 8]?).bind fun b => b[y % 8 * 8 + x % 8]?).getD 0

end Plane

inductive Spreading
  | none
  | twiceAcross
  | twiceDown
  | twiceBoth
  | many (across down : Nat)

namespace Spreading

/-- How the samples of a component are spread. Their number has to divide that of the pixels. -/
def ofComponent? (f : Frame) (c : Component) : Option Spreading :=
  let isFullAcross := c.across == f.maxAcross || f.width == 1
  let isFullDown := c.down == f.maxDown || f.height == 1
  let isHalfAcross := 2 * c.across == f.maxAcross
  let isHalfDown := 2 * c.down == f.maxDown
  if isFullAcross && isFullDown then some .none
  else if isHalfAcross && isFullDown then some .twiceAcross
  else if isFullAcross && isHalfDown then some .twiceDown
  else if isHalfAcross && isHalfDown then some .twiceBoth
  else if f.maxAcross % c.across = 0 ∧ f.maxDown % c.down = 0 then
    some (.many (f.maxAcross / c.across) (f.maxDown / c.down))
  else Option.none

/-- The sample besides the nearest one that a pixel between samples also depends on. -/
def further (count pixel : Nat) : Nat :=
  if pixel % 2 = 0 then pixel / 2 - 1 else Nat.min (pixel / 2 + 1) (count - 1)

/-- The sample of a pixel in a plane of some columns and rows. The nearest sample counts three
times as much as the further one. -/
def sample (s : Spreading) (columns rows : Nat) (plane : Plane) (x y : Nat) : Nat :=
  let mixDown (x : Nat) : Nat := 3 * plane.sample x (y / 2) + plane.sample x (further rows y)
  match s with
  | .none => plane.sample x y
  | .twiceAcross => (3 * plane.sample (x / 2) y + plane.sample (further columns x) y + 2) / 4
  | .twiceDown => (mixDown x + 2) / 4
  | .twiceBoth => (3 * mixDown (x / 2) + mixDown (further columns x) + 8) / 16
  | .many across down => plane.sample (x / across) (y / down)

end Spreading

end Xps.Jpeg
