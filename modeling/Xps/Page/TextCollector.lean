import Xps.Element.Node
import Xps.Markup.Reader
import Xps.Page.Glyphs

/-!
# Collecting text

A collector follows the events of a page and places the characters of each `Glyphs` element at its
end. `Canvas` and `Glyphs` save the frame and give it back.
-/

namespace Xps

structure TextCollector (σ : Type) where
  scopes : ScopeStack := {}
  frame : Frame := ⟨Transform.identity, []⟩
  /-- The frames to give back, the innermost first. -/
  saved : List Frame := []
  fonts : FontCache σ

namespace TextCollector

/-- The box of a transformed rectangle in page-relative coordinates. -/
def normalize (t : Transform) (size : Size) (r : Rect) : Rect :=
  let corners : List Point :=
    [⟨r.left, r.top⟩, ⟨r.right, r.top⟩, ⟨r.right, r.bottom⟩, ⟨r.left, r.bottom⟩]
  let none : Rect := ⟨Single.largest, Single.largest, -Single.largest, -Single.largest⟩
  let box := none.cover (corners.map t.map)
  ⟨box.left / size.width, box.top / size.height, box.right / size.width, box.bottom / size.height⟩

/-- The boxes of characters of some advances, side by side from a point of the baseline on. -/
def boxes (height y : Float32) : Float32 → List Float32 → List Rect
  | _, [] => []
  | x, advance :: advances =>
    ⟨x, y - height, x + advance, y⟩ :: boxes height y (x + advance) advances

variable {σ : Type} [FontProvider σ]

/-- The advances of characters in page units. A character without one does not advance. -/
def advances (provider : σ) (font : Font) (scale : Float32) (text : List Char) : List Float32 :=
  text.map fun c => (FontProvider.advance provider font.id c).getD 0 * scale

/-- The characters of a run in their boxes, before any transform. -/
def line? (provider : σ) (font : Font) (origin : Point) (text : String) :
    Option (List PlacedChar) := do
  let metrics ← FontProvider.metrics provider font.id
  let characters := text.toList
  let widths := advances provider font (metrics.scale font.size) characters
  return characters.zipWith PlacedChar.mk
    (boxes (metrics.height font.size) origin.y origin.x widths)

/-- Places the characters of a run of text in a font. -/
def placeText (provider : σ) (font : Font) (frame : Frame) (size : Size)
    (attributes : Attributes) : Journaled Unit := do
  match Glyphs.text? attributes with
  | none => return
  | some text =>
    let origin ← Glyphs.origin attributes
    match line? provider font origin text with
    | none => Journaled.note .metricsMissing
    | some line =>
      ⟨(), line.map fun c => .place ⟨c.character, normalize frame.total size c.box⟩⟩

/-- Places the characters of a `Glyphs` element. -/
def placeGlyphs (frame : Frame) (context : PageContext) (fonts : FontCache σ)
    (attributes : Attributes) : Journaled (FontCache σ) := do
  match ← Glyphs.font attributes context fonts with
  | (none, fonts) =>
    Journaled.note .textSkipped
    return fonts
  | (some font, fonts) =>
    placeText fonts.provider font frame context.size attributes
    return fonts

/-! ## Events -/

omit [FontProvider σ] in
def save (c : TextCollector σ) : TextCollector σ := { c with saved := c.frame :: c.saved }

omit [FontProvider σ] in
def restore (c : TextCollector σ) : Journaled (TextCollector σ) := do
  match c.saved with
  | frame :: saved => return { c with frame, saved }
  | [] =>
    Journaled.note .unbalancedTransform
    return c

omit [FontProvider σ] in
def compose (c : TextCollector σ) (t : Transform) : TextCollector σ :=
  { c with frame := c.frame.compose t }

omit [FontProvider σ] in
/-- Composes the transform that an element has as an attribute. -/
def composeAttribute (c : TextCollector σ) (attributes : Attributes) :
    Journaled (TextCollector σ) := do
  match attributes.get? "RenderTransform" with
  | some value => return c.compose (← Transform.resolve value)
  | none => return c

def start (c : TextCollector σ) (name : String) (attributes : Attributes) :
    Journaled (TextCollector σ) := do
  let c := { c with scopes := c.scopes.push name attributes }
  match ElementKind.ofName name with
  | .canvas => c.save.composeAttribute attributes
  | .glyphs => return c.save
  | _ => return c

/-- Does what the end of an element asks for. -/
def process (context : PageContext) (c : TextCollector σ) (node : Node) :
    Journaled (Node × TextCollector σ) := do
  match node.kind with
  | .canvas => return (node, ← c.restore)
  | .glyphs =>
    let c ← c.composeAttribute node.attributes
    let fonts ← placeGlyphs c.frame context c.fonts node.attributes
    return (node, ← restore { c with fonts })
  | .canvasRenderTransform | .glyphsRenderTransform =>
    match ← node.requiredChildTransform "MatrixTransform" with
    | (some t, node) => return (node, c.compose t)
    | (none, node) => return (node, c)
  | .matrixTransform => return (← node.resolveMatrix, c)
  | _ => return (node, c)

def stop (context : PageContext) (c : TextCollector σ) (name : String) :
    Journaled (TextCollector σ) := do
  match ← c.scopes.pop name with
  | (none, _) => return c
  | (some node, scopes) =>
    let (node, c) ← process context { c with scopes } node
    return { c with scopes := c.scopes.attach node }

def step (context : PageContext) (c : TextCollector σ) : MarkupEvent → Journaled (TextCollector σ)
  | .document => return c
  | .start name attributes => c.start name attributes
  | .stop name => stop context c name

/-- Follows events in order. -/
def run (context : PageContext) (c : TextCollector σ) (events : List MarkupEvent) :
    Journaled (TextCollector σ) :=
  events.foldlM (step context) c

end TextCollector

end Xps
