import Xps.Canvas.Basic
import Xps.Page.Painter
import Xps.Page.TextCollector

/-!
# Pages as images and as text

The markup of a page is followed to its end or to its first error. What was painted before an error
stays, while the text of a broken page is an error.
-/

namespace Xps.Page

variable {σ : Type} [FontProvider σ]

/-- Scales a page to fill the whole target. -/
def pageScale (size : Size) (target : PixelSize) : Transform :=
  .scaling (Single.ofNat target.width / size.width) (Single.ofNat target.height / size.height)

omit [FontProvider σ] in
/-- A painter of an empty page. -/
def painter (base : Transform) (fonts : FontCache σ) : Painter σ :=
  { state := ⟨⟨base, []⟩, 1⟩, fonts }

/-- Paints the events of a page and reports the error that ends them. -/
def paintMarkup (markup : String) (context : PageContext) (base : Transform)
    (fonts : FontCache σ) : Journaled (FontCache σ) := do
  let (events, error) := Markup.events markup
  let p ← (painter base fonts).run context events
  if let some e := error then
    Journaled.note (.pageBroken context.partName (.invalidMarkup e))
  return p.fonts

/-- Renders markup on a new canvas, unless the canvas is too large. -/
def renderMarkup (markup : String) (context : PageContext) (fonts : FontCache σ)
    (target : PixelSize) : Journaled (Option Canvas × FontCache σ) :=
  match Canvas.blank? target context.options.background with
  | none => return (none, fonts)
  | some canvas =>
    let painted := paintMarkup markup context (pageScale context.size target) fonts
    ⟨(some (canvas.paint painted.entries), painted.value), painted.entries⟩

/-- The characters of a page, in the order of the markup. -/
def extractMarkup (markup : String) (context : PageContext) (fonts : FontCache σ) :
    Journaled (Except Error TextLayout × FontCache σ) :=
  let (events, error) := Markup.events markup
  let collected := TextCollector.run context { fonts } events
  let result : Except Error TextLayout :=
    match error with
    | some e => .error (.invalidMarkup e)
    | none => .ok ⟨collected.placed⟩
  ⟨(result, collected.value.fonts), collected.entries⟩

end Xps.Page
