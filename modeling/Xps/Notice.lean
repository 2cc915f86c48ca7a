import Xps.Error
import Xps.PathData.Token

/-!
# Notices

Everything that is reported while a package is read: what is skipped, ignored or broken. A notice
has a source, the area that it belongs to, and a level: a warning or a detail for debugging.
-/

namespace Xps

inductive Notice
  -- path data
  | pathBroken (text : String) (fault : PathFault)
  | invalidFillRule (value : Float32)
  | arcsIgnored
  -- transforms
  | invalidMatrix (text : String)
  | transformReference (text : String)
  -- brushes
  | scRgbColor (text : String)
  | brushReference (text : String)
  | invalidColor (text : String)
  | colorMissing
  | invalidViewbox
  | invalidViewport
  | imageSourceMissing
  | imageReference (text : String)
  | imageUnreadable (error : Error)
  -- attributes
  | invalidNumber (name value : String)
  -- nodes
  | childMissing (node child : String)
  | childCount (node : String) (count : Nat)
  | matrixMissing
  | endMismatch (expected found : String)
  | endUnopened (name : String)
  -- rendering
  | unbalancedState
  | geometryReference
  | geometryMissing
  | dashesIgnored
  | fontUriMissing
  | invalidEmSize
  | fontUnresolved (name : String)
  -- text
  | unbalancedTransform
  | textSkipped
  | metricsMissing
  -- fonts
  | fontUnreadable (error : Error)
  | notAFont (name : String)
  | obfuscatedTooShort (name : String)
  | obfuscatedRejected (name : String)
  -- images
  | unknownImage
  | brokenPng
  | brokenJpeg
  | unsupportedJpeg (pixelFormat : String)
  -- packages
  | pageUnreadable (name : String) (error : Error)
  | documentSkipped (name : String) (error : Error)
  | pageSkipped (name : String) (error : Error)
  | pagesFound (count : Nat)
  -- pages
  | pageBroken (name : String) (error : Error)

namespace Notice

/-- Details are not worth a warning. -/
def isDetail : Notice → Bool
  | arcsIgnored | geometryMissing | dashesIgnored | pagesFound _ => true
  | _ => false

def source : Notice → String
  | pathBroken .. | invalidFillRule _ | arcsIgnored => "resxps::pathdata"
  | invalidMatrix _ | transformReference _ => "resxps::transform"
  | scRgbColor _ | brushReference _ | invalidColor _ | colorMissing | invalidViewbox
  | invalidViewport | imageSourceMissing | imageReference _ | imageUnreadable _ =>
    "resxps::paint_server"
  | invalidNumber .. => "resxps::xml"
  | childMissing .. | childCount .. | matrixMissing | endMismatch .. | endUnopened _ =>
    "resxps::tree"
  | unbalancedState | geometryReference | geometryMissing | dashesIgnored | fontUriMissing
  | invalidEmSize | fontUnresolved _ => "resxps::render"
  | unbalancedTransform | textSkipped | metricsMissing => "resxps::text"
  | fontUnreadable _ | notAFont _ | obfuscatedTooShort _ | obfuscatedRejected _ => "resxps::font"
  | unknownImage | brokenPng | brokenJpeg => "resxps::image"
  | unsupportedJpeg _ => "resxps::image::raster_images"
  | pageUnreadable .. | documentSkipped .. | pageSkipped .. | pagesFound _ => "resxps::package"
  | pageBroken .. => "resxps"

def message : Notice → String
  | pathBroken text fault =>
    "Failed to parse path data '" ++ text ++ "' cause " ++ fault.message ++ "."
  | invalidFillRule value => "Invalid fill rule: " ++ Shortest.plain value ++ "."
  | arcsIgnored => "Arc segments are not supported."
  | invalidMatrix text => "Invalid matrix: '" ++ text ++ "'."
  | transformReference text =>
    "Transform resources are not supported. '" ++ text ++ "' is ignored."
  | scRgbColor text => "scRGB colors are not supported. '" ++ text ++ "' is ignored."
  | brushReference text => "Brush resources are not supported. '" ++ text ++ "' is ignored."
  | invalidColor text => "Invalid color: '" ++ text ++ "'."
  | colorMissing => "SolidColorBrush without a color."
  | invalidViewbox => "ImageBrush has an invalid Viewbox."
  | invalidViewport => "ImageBrush has an invalid Viewport."
  | imageSourceMissing => "ImageBrush without an ImageSource."
  | imageReference text => "Image resources are not supported. '" ++ text ++ "' is ignored."
  | imageUnreadable error => "Failed to load an image cause " ++ error.message ++ "."
  | invalidNumber name value => "Failed to parse " ++ name ++ " value: '" ++ value ++ "'."
  | childMissing node child => node ++ " doesn't have a required " ++ child ++ " child."
  | childCount node count => node ++ s!" must have exactly one child, but has {count}."
  | matrixMissing => "MatrixTransform without a Matrix."
  | endMismatch expected found =>
    "Expected '" ++ expected ++ "' to be closed, got '" ++ found ++ "'."
  | endUnopened name => "'" ++ name ++ "' was closed, but wasn't opened."
  | unbalancedState => "Unbalanced painting state restore."
  | geometryReference => "Path geometry resources are not supported."
  | geometryMissing => "Paths without the Data attribute are not supported."
  | dashesIgnored => "Dashed strokes are not supported."
  | fontUriMissing => "Glyphs without a FontUri."
  | invalidEmSize => "Glyphs have an invalid FontRenderingEmSize."
  | fontUnresolved name => "Failed to resolve font '" ++ name ++ "'."
  | unbalancedTransform => "Unbalanced transform restore."
  | textSkipped => "Text of a Glyphs element with an unknown font is skipped."
  | metricsMissing => "Font metrics are not available. Text is skipped."
  | fontUnreadable error => "Failed to load a font cause " ++ error.message ++ "."
  | notAFont name => "'" ++ name ++ "' is not a font and not an obfuscated font."
  | obfuscatedTooShort name => "'" ++ name ++ "' is too short to be an obfuscated font."
  | obfuscatedRejected name => "Failed to load an obfuscated font '" ++ name ++ "'."
  | unknownImage => "Unknown image format."
  | brokenPng => "Failed to decode a PNG image."
  | brokenJpeg => "Failed to decode a JPEG image."
  | unsupportedJpeg pixelFormat => pixelFormat ++ " JPEG is not supported."
  | pageUnreadable name error => "Failed to read '" ++ name ++ "' cause " ++ error.message ++ "."
  | documentSkipped name error =>
    "Failed to load document '" ++ name ++ "' cause " ++ error.message ++ "."
  | pageSkipped name error => "Page '" ++ name ++ "' is skipped cause " ++ error.message ++ "."
  | pagesFound count => s!"Found {count} pages."
  | pageBroken name error => "Failed to render '" ++ name ++ "' cause " ++ error.message ++ "."

end Notice

end Xps
