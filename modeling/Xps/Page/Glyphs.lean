import Xps.Font.Cache
import Xps.Markup.Attributes
import Xps.Page.Context

/-!
# Runs of glyphs

The font, text and origin of a `Glyphs` element, which are the same whether it is painted or read.
-/

namespace Xps.Glyphs

variable {σ : Type} [FontProvider σ]

/-- The font of a run. -/
def font (attributes : Attributes) (context : PageContext) (fonts : FontCache σ) :
    Journaled (Option Font × FontCache σ) := do
  match ← noteNone (attributes.get? "FontUri") .fontUriMissing with
  | none => return (none, fonts)
  | some uri =>
    let size := (← attributes.number? "FontRenderingEmSize").filter (0 < ·)
    match ← noteNone size .invalidEmSize with
    | none => return (none, fonts)
    | some size =>
      let name := PartName.resolve context.partName uri
      let (font, fonts) ← fonts.resolve context.archive name size
      let font ← noteNone font (.fontUnresolved name)
      return (font, fonts)

/-- A text may begin with empty braces, which only keep it from being a reference. -/
def dropEscape (text : String) : String :=
  match text.toList with
  | '\x7b' :: '\x7d' :: rest => String.ofList rest
  | _ => text

/-- The text of a run, unless it is empty. -/
def text? (attributes : Attributes) : Option String := do
  let text := dropEscape (← attributes.get? "UnicodeString")
  if text.isEmpty then none else some text

/-- The left end of the baseline. -/
def origin (attributes : Attributes) : Journaled Point := do
  let x := (← attributes.number? "OriginX").getD 0
  let y := (← attributes.number? "OriginY").getD 0
  return ⟨x, y⟩

end Xps.Glyphs
