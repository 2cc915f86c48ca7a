/-!
# Element kinds

The elements of page markup that mean something. All others are unknown.
-/

namespace Xps

inductive ElementKind
  | fixedPage
  | canvas
  | canvasRenderTransform
  | path
  | pathFill
  | pathStroke
  | pathRenderTransform
  | glyphs
  | glyphsFill
  | glyphsRenderTransform
  | matrixTransform
  | solidColorBrush
  | imageBrush
  | imageBrushTransform
  | unknown
deriving DecidableEq

namespace ElementKind

def ofName : String → ElementKind
  | "FixedPage" => fixedPage
  | "Canvas" => canvas
  | "Canvas.RenderTransform" => canvasRenderTransform
  | "Path" => path
  | "Path.Fill" => pathFill
  | "Path.Stroke" => pathStroke
  | "Path.RenderTransform" => pathRenderTransform
  | "Glyphs" => glyphs
  | "Glyphs.Fill" => glyphsFill
  | "Glyphs.RenderTransform" => glyphsRenderTransform
  | "MatrixTransform" => matrixTransform
  | "SolidColorBrush" => solidColorBrush
  | "ImageBrush" => imageBrush
  | "ImageBrush.Transform" => imageBrushTransform
  | _ => unknown

/-- The element saves the painting state and gives it back. -/
def isScope : ElementKind → Bool
  | canvas | path | glyphs => true
  | _ => false

/-- The element wraps the transform of its parent. -/
def isRenderTransform : ElementKind → Bool
  | canvasRenderTransform | pathRenderTransform | glyphsRenderTransform => true
  | _ => false

end ElementKind

end Xps
