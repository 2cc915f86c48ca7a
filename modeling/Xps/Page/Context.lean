import Xps.Archive.Basic
import Xps.Geometry.Size

/-!
# Page contexts

What the markup of a page is read with: the package around it, its own name and size, and options.
-/

namespace Xps

structure Options where
  /-- The color of an empty page. -/
  background : Color := Color.white
  antiAlias : Bool := true

structure PageContext where
  archive : Archive
  /-- References are relative to this part. -/
  partName : String
  /-- The size in units of 1/96 inch. -/
  size : Size
  options : Options

end Xps
