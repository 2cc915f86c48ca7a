import Xps.Element.Node
import Xps.Image.Raster
import Xps.Page.Context
import Xps.Paint.Color

/-!
# Brush values

Brushes are resolved from attribute values and from brush elements. One that cannot be resolved is
empty, and that is reported.
-/

namespace Xps.Brush

/-- The brush of a `Fill`, `Stroke` or `Color` attribute. -/
def ofValue (value : String) : Journaled Brush := do
  if Text.isReference value then
    Journaled.note (.brushReference value)
    return empty
  else
    match ← noteNone (← Color.parse value) (.invalidColor value) with
    | some color => return solid color
    | none => return empty

/-- The opacity of an element, between 0 and 1. -/
def opacity (attributes : Attributes) : Journaled Float32 := do
  return ((← attributes.number? "Opacity").map (Single.clamp 0 1)).getD 1

/-- The brush of a `SolidColorBrush` element. -/
def ofSolidColor (attributes : Attributes) : Journaled Brush := do
  match attributes.get? "Color" with
  | none =>
    Journaled.note .colorMissing
    return empty
  | some value =>
    match ← ofValue value with
    | solid color => return solid (color.withOpacity (← opacity attributes))
    | brush => return brush

/-- A rectangle of an area, written as four numbers: its corner and its size. -/
def rect? (text : String) : Option Rect := do
  match ← (Transform.splitCommas text).mapM fun part => Decimal.read? (Text.trim part) with
  | [x, y, width, height] => Rect.ofCorner? x y width height
  | _ => none

/-- The image that an `ImageBrush` element names. -/
def loadImage (attributes : Attributes) (context : PageContext) :
    Journaled (Option RasterImage) := do
  match ← noteNone (attributes.get? "ImageSource") .imageSourceMissing with
  | none => return none
  | some source =>
    if Text.isReference source then
      Journaled.note (.imageReference source)
      return none
    else
      match ← context.archive.read (PartName.resolve context.partName source) with
      | .ok data => RasterImage.decode data
      | .error e =>
        Journaled.note (.imageUnreadable e)
        return none

/-- The rectangle that the unit square is mapped to. -/
def rectTransform (r : Rect) (scaleX scaleY : Float32) : Transform :=
  ⟨r.width * scaleX, 0, 0, r.height * scaleY, r.left * scaleX, r.top * scaleY⟩

/-- Maps the pixels of an image to the viewport. The viewbox is in units of 1/96 inch. -/
def imageTransform (image : RasterImage) (viewbox viewport : Rect) (explicit : Transform) :
    Transform :=
  let pixels := rectTransform viewbox (image.dotsX / 96) (image.dotsY / 96)
  let target : Transform :=
    ⟨viewport.width, 0, 0, viewport.height, viewport.left, viewport.top⟩
  (explicit.preConcat target).preConcat pixels.invertScaling

/--
The brush of an `ImageBrush` element. Its `Transform` attribute goes before the transform of its
child.
-/
def ofImage (attributes : Attributes) (childTransform : Option Transform) (context : PageContext) :
    Journaled Brush := do
  match ← loadImage attributes context with
  | none => return empty
  | some raster =>
    match ← noteNone ((attributes.get? "Viewbox").bind rect?) .invalidViewbox with
    | none => return empty
    | some viewbox =>
      match ← noteNone ((attributes.get? "Viewport").bind rect?) .invalidViewport with
      | none => return empty
      | some viewport =>
        let explicit ← match attributes.get? "Transform" with
          | some value => Transform.resolve value
          | none => pure (childTransform.getD Transform.identity)
        return image raster.bitmap (imageTransform raster viewbox viewport explicit)
          (← opacity attributes)

end Xps.Brush
