import Xps.Page.Painter
import Xps.Proofs.Element.Closed
import Xps.Proofs.Element.Forest

/-!
# Painting a forest

The meaning of page markup without stacks: a forest is painted from left to right, each element
between its children and the elements that follow it. What it computed goes to the element around it
and nowhere else, and a canvas, path or run of glyphs leaves the painting state as it found it.
-/

namespace Xps

/-- What is handed on from element to element: how to paint, and the fonts met so far. -/
structure Drawing (σ : Type) where
  state : PaintState
  fonts : FontCache σ

namespace TreePainter

/-! ## One element -/

/-- The state inside of an element. Only a canvas changes it. -/
def enter (name : String) (attributes : Attributes) (state : PaintState) : Journaled PaintState :=
  if ElementKind.ofName name = .canvas then do
    let frame ← Painter.elementFrame attributes state.frame
    let opacity := state.opacity * (← Brush.opacity attributes)
    return ⟨frame, opacity⟩
  else return state

/-- The brush of an attribute, or else of the first property element. -/
def brush (attributes : Attributes) (children : List Closed) (name property : String) :
    Journaled Brush :=
  match attributes.get? name with
  | some value => Brush.ofValue value
  | none => return (Closed.brushOf children property).getD .empty

/-- Paints a path: first its inside, then the line along it. -/
def paintPath (state : PaintState) (context : PageContext) (attributes : Attributes)
    (children : List Closed) : Journaled Unit := do
  match ← Painter.geometry attributes with
  | none => return
  | some data =>
    match data.outline? with
    | none => return
    | some outline =>
      let fill ← brush attributes children "Fill" "Path.Fill"
      let line ← brush attributes children "Stroke" "Path.Stroke"
      let opacity := state.opacity * (← Brush.opacity attributes)
      let frame ← Painter.elementFrame attributes state.frame
      if let some paint := fill.paint? opacity then
        Painter.call outline (.fill data.fillRule) paint frame context
      if let some paint := line.paint? opacity then
        Painter.call outline (.stroke (← Painter.stroke attributes)) paint frame context

variable {σ : Type} [FontProvider σ]

/-- Paints a run of text in a font. -/
def paintText (state : PaintState) (context : PageContext) (provider : σ) (font : Font)
    (attributes : Attributes) (children : List Closed) : Journaled Unit := do
  let fill ← brush attributes children "Fill" "Glyphs.Fill"
  match Glyphs.text? attributes with
  | none => return
  | some text =>
    let opacity := state.opacity * (← Brush.opacity attributes)
    let frame ← Painter.elementFrame attributes state.frame
    match fill.paint? opacity with
    | none => return
    | some paint =>
      let origin ← Glyphs.origin attributes
      if let some outline := Painter.textOutline? provider font origin text then
        Painter.call outline (.fill .winding) paint frame context

/-- Paints a run of glyphs, if its font is there. -/
def paintGlyphs (context : PageContext) (attributes : Attributes) (children : List Closed)
    (d : Drawing σ) : Journaled (FontCache σ) := do
  match ← Glyphs.font attributes context d.fonts with
  | (none, fonts) => return fonts
  | (some font, fonts) =>
    paintText d.state context fonts.provider font attributes children
    return fonts

/-- The matrix of a `MatrixTransform` element. -/
def matrix (attributes : Attributes) : Journaled Transform :=
  match attributes.get? "Matrix" with
  | some value => Transform.resolve value
  | none => do
    Journaled.note .matrixMissing
    return .identity

/-- The matrix of the first `MatrixTransform` child. Its absence is reported. -/
def matrixChild (name : String) (children : List Closed) : Journaled (Option Transform) :=
  noteNone (Closed.transformOf children "MatrixTransform") (.childMissing name "MatrixTransform")

/-- What the first child computed. More or fewer children are reported. -/
def forward (name : String) (children : List Closed) : Journaled (Option ComputedData) := do
  if children.length ≠ 1 then Journaled.note (.childCount name children.length)
  return children.head?.bind Closed.data

omit [FontProvider σ] in
/-- Composes a transform, if there is one, onto the state. -/
def compose (d : Drawing σ) : Option Transform → Drawing σ
  | some t => { d with state := { d.state with frame := d.state.frame.compose t } }
  | none => d

/-- Does what the end of an element asks for, and computes what its parent is given. -/
def close (context : PageContext) (name : String) (attributes : Attributes)
    (children : List Closed) (d : Drawing σ) : Journaled (Option ComputedData × Drawing σ) :=
  match ElementKind.ofName name with
  | .path => do
    paintPath d.state context attributes children
    return (none, d)
  | .glyphs => return (none, { d with fonts := ← paintGlyphs context attributes children d })
  | .canvasRenderTransform | .pathRenderTransform | .glyphsRenderTransform =>
    return (none, compose d (← matrixChild name children))
  | .pathFill | .pathStroke | .glyphsFill => return (← forward name children, d)
  | .matrixTransform => return (some (.transform (← matrix attributes)), d)
  | .solidColorBrush => return (some (.brush (← Brush.ofSolidColor attributes)), d)
  | .imageBrush => do
    let transform := Closed.transformOf children "ImageBrush.Transform"
    return (some (.brush (← Brush.ofImage attributes transform context)), d)
  | .imageBrushTransform => return ((← matrixChild name children).map .transform, d)
  | .canvas | .fixedPage | .unknown => return (none, d)

omit [FontProvider σ] in
/-- Gives the state in front of an element back, if the element asks for it. -/
def leave (name : String) (before : PaintState) (d : Drawing σ) : Drawing σ :=
  if (ElementKind.ofName name).isScope then { d with state := before } else d

end TreePainter

/-! ## Forests -/

open TreePainter in
/-- Paints a forest from left to right, and gives what its elements computed. -/
def Forest.paint {σ : Type} [FontProvider σ] (context : PageContext) :
    Forest → Drawing σ → Journaled (List Closed × Drawing σ)
  | nil, d => return ([], d)
  | cons name attributes children rest, d => do
    let inner ← enter name attributes d.state
    let (closed, inside) ← children.paint context ⟨inner, d.fonts⟩
    let (data, after) ← close context name attributes closed inside
    let (siblings, last) ← rest.paint context (leave name d.state after)
    return (⟨name, attributes, data⟩ :: siblings, last)

end Xps
