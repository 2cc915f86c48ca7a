import Xps.Page.Rendering

/-!
# Pages of a package

A page is known by its part name and size. Its image is kept until another size is asked for.
-/

namespace Xps

structure Page where
  partName : String
  size : Size
  image : Option Canvas := none

namespace Page

/-- The size that the root element of a page gives. -/
def headerSize (markup : String) : Journaled (Except Error Size) := do
  match Markup.rootAttributes markup with
  | .error e => return .error (.invalidMarkup e)
  | .ok attributes =>
    let width ← attributes.number? "Width"
    let height ← attributes.number? "Height"
    let size := width.bind fun w => height.bind fun h => Size.ofSides? w h
    return (size.map Except.ok).getD (.error .invalidPageSize)

/-- Reads the size of a page. The content behind the root tag is not looked at. -/
def load (archive : Archive) (partName : String) : Journaled (Except Error Page) := do
  match ← archive.readText partName with
  | .error e => return .error e
  | .ok markup => return (← headerSize markup).map fun size => { partName, size }

def context (p : Page) (archive : Archive) (options : Options) : PageContext :=
  { archive, partName := p.partName, size := p.size, options }

/-- The image that is kept, if it has the right size. -/
def cached? (p : Page) (target : PixelSize) : Option Canvas :=
  p.image.filter fun canvas => canvas.size = target

/-- The markup of a page. A page that cannot be read is empty. -/
def markupOrEmpty (p : Page) (archive : Archive) : Journaled String := do
  match ← archive.readText p.partName with
  | .ok markup => return markup
  | .error e =>
    Journaled.note (.pageUnreadable p.partName e)
    return ""

variable {σ : Type} [FontProvider σ]

/-- Renders the page, unless there is an image of that size. Nothing is kept of a failure. -/
def render (p : Page) (archive : Archive) (fonts : FontCache σ) (options : Options)
    (target : PixelSize) : Journaled (Option Canvas × Page × FontCache σ) := do
  match p.cached? target with
  | some canvas => return (some canvas, p, fonts)
  | none =>
    let markup ← p.markupOrEmpty archive
    match ← renderMarkup markup (p.context archive options) fonts target with
    | (some canvas, fonts) => return (some canvas, { p with image := some canvas }, fonts)
    | (none, fonts) => return (none, p, fonts)

def extractText (p : Page) (archive : Archive) (fonts : FontCache σ) (options : Options) :
    Journaled (Except Error TextLayout × FontCache σ) := do
  match ← archive.readText p.partName with
  | .error e => return (.error e, fonts)
  | .ok markup => extractMarkup markup (p.context archive options) fonts

end Page

end Xps
