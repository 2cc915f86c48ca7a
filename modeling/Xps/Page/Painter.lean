import Xps.Markup.Reader
import Xps.Page.Glyphs
import Xps.Paint.Brush
import Xps.PathData.Reader

/-!
# Painting markup

A painter follows the events of a page. `Canvas`, `Path` and `Glyphs` save the painting state and
give it back at their end, where paths and glyphs are painted: first the fill, then the stroke.
-/

namespace Xps

structure PaintState where
  frame : Frame
  opacity : Float32

structure Painter (σ : Type) where
  scopes : ScopeStack := {}
  state : PaintState
  /-- The states to give back, the innermost first. -/
  saved : List PaintState := []
  fonts : FontCache σ

namespace Painter

/-! ## Attributes -/

/-- A brush comes from an attribute, or else from a child. -/
def brush (node : Node) (name property : String) : Journaled (Brush × Node) := do
  match node.attributes.get? name with
  | some value => return (← Brush.ofValue value, node)
  | none =>
    let (brush, node) := node.childBrush property
    return (brush.getD .empty, node)

def stroke (attributes : Attributes) : Journaled Stroke := do
  let width := (← attributes.number? "StrokeThickness").getD 1
  let miterLimit := Single.max ((← attributes.number? "StrokeMiterLimit").getD 10) 1
  let join : LineJoin :=
    match attributes.get? "StrokeLineJoin" with
    | some "Bevel" => .bevel
    | some "Round" => .round
    | _ => .miter
  let cap : LineCap :=
    match attributes.get? "StrokeStartLineCap" with
    | some "Round" => .round
    | some "Square" => .square
    | _ => .butt
  if (attributes.get? "StrokeDashArray").isSome then Journaled.note .dashesIgnored
  return { width, miterLimit, join, cap }

/-- The frame of an element with a transform of its own. -/
def elementFrame (attributes : Attributes) (frame : Frame) : Journaled Frame := do
  match attributes.get? "RenderTransform" with
  | some value => return frame.compose (← Transform.resolve value)
  | none => return frame

/-- The path data of an element. -/
def geometry (attributes : Attributes) : Journaled (Option PathData) := do
  match attributes.get? "Data" with
  | none => noteNone none .geometryMissing
  | some value =>
    if Text.isReference value then noteNone none .geometryReference
    else return some (← PathData.parse value)

/-! ## Elements -/

variable {σ : Type} [FontProvider σ]

/-- Paints an outline, if there is something to paint it with. -/
def call (outline : Outline) (coverage : Coverage) (paint : Paint) (frame : Frame)
    (context : PageContext) : Journaled Unit :=
  Journaled.write (.paint ⟨outline, coverage, paint, frame, context.options.antiAlias⟩)

/-- Paints a `Path` element. -/
def paintPath (state : PaintState) (context : PageContext) (node : Node) : Journaled Node := do
  match ← geometry node.attributes with
  | none => return node
  | some data =>
    match data.outline? with
    | none => return node
    | some outline =>
      let (fill, node) ← brush node "Fill" "Path.Fill"
      let (line, node) ← brush node "Stroke" "Path.Stroke"
      let opacity := state.opacity * (← Brush.opacity node.attributes)
      let frame ← elementFrame node.attributes state.frame
      if let some paint := fill.paint? opacity then
        call outline (.fill data.fillRule) paint frame context
      if let some paint := line.paint? opacity then
        call outline (.stroke (← stroke node.attributes)) paint frame context
      return node

/-- Maps an outline in font units to its place on the page, where the vertical axis points down. -/
def glyphTransform (scale x y : Float32) (glyph : ShapedGlyph) : Transform :=
  ⟨scale, 0, 0, -scale, x + Single.ofInt glyph.xOffset.toInt * scale,
    y - Single.ofInt glyph.yOffset.toInt * scale⟩

/-- Where the pen stands after a glyph. -/
def advance (scale x : Float32) (glyph : ShapedGlyph) : Float32 :=
  x + Single.ofInt glyph.advance.toInt * scale

/-- The outlines of glyphs that are set one after the other from a point on. -/
def glyphSteps (provider : σ) (id : FontId) (scale y : Float32) :
    Float32 → List ShapedGlyph → List OutlineStep
  | _, [] => []
  | x, glyph :: glyphs =>
    let placed :=
      (FontProvider.outline provider id glyph.glyph).bind
        (Outline.transform? (glyphTransform scale x y glyph))
    (placed.map Outline.steps).getD [] ++
      glyphSteps provider id scale y (advance scale x glyph) glyphs

/-- The outline of a run of text. -/
def textOutline? (provider : σ) (font : Font) (origin : Point) (text : String) :
    Option Outline := do
  let metrics ← FontProvider.metrics provider font.id
  let glyphs := FontProvider.shape provider font.id text
  Outline.ofSteps? (glyphSteps provider font.id (metrics.scale font.size) origin.y origin.x glyphs)

/-- Paints a run of text in a font. -/
def paintText (state : PaintState) (context : PageContext) (provider : σ) (font : Font)
    (node : Node) : Journaled Node := do
  let (fill, node) ← brush node "Fill" "Glyphs.Fill"
  match Glyphs.text? node.attributes with
  | none => return node
  | some text =>
    let opacity := state.opacity * (← Brush.opacity node.attributes)
    let frame ← elementFrame node.attributes state.frame
    match fill.paint? opacity with
    | none => return node
    | some paint =>
      let origin ← Glyphs.origin node.attributes
      if let some outline := textOutline? provider font origin text then
        call outline (.fill .winding) paint frame context
      return node

/-- Paints a `Glyphs` element. -/
def paintGlyphs (state : PaintState) (context : PageContext) (fonts : FontCache σ) (node : Node) :
    Journaled (Node × FontCache σ) := do
  match ← Glyphs.font node.attributes context fonts with
  | (none, fonts) => return (node, fonts)
  | (some font, fonts) =>
    let node ← paintText state context fonts.provider font node
    return (node, fonts)

/-! ## Events -/

omit [FontProvider σ] in
def save (p : Painter σ) : Painter σ := { p with saved := p.state :: p.saved }

omit [FontProvider σ] in
def restore (p : Painter σ) : Journaled (Painter σ) := do
  match p.saved with
  | state :: saved => return { p with state, saved }
  | [] =>
    Journaled.note .unbalancedState
    return p

omit [FontProvider σ] in
def compose (p : Painter σ) (t : Transform) : Painter σ :=
  { p with state := { p.state with frame := p.state.frame.compose t } }

/-- Enters a canvas: its own transform and opacity hold for everything inside. -/
def enterCanvas (p : Painter σ) (attributes : Attributes) : Journaled (Painter σ) := do
  let frame ← elementFrame attributes p.state.frame
  let opacity := p.state.opacity * (← Brush.opacity attributes)
  return { p with state := ⟨frame, opacity⟩ }

def start (p : Painter σ) (name : String) (attributes : Attributes) : Journaled (Painter σ) := do
  let kind := ElementKind.ofName name
  let p := if kind.isScope then p.save else p
  let p ← if kind = .canvas then p.enterCanvas attributes else pure p
  return { p with scopes := p.scopes.push name attributes }

/-- Does what the end of an element asks for. -/
def process (context : PageContext) (p : Painter σ) (node : Node) :
    Journaled (Node × Painter σ) := do
  match node.kind with
  | .canvas => return (node, ← p.restore)
  | .path =>
    let node ← paintPath p.state context node
    return (node, ← p.restore)
  | .glyphs =>
    let (node, fonts) ← paintGlyphs p.state context p.fonts node
    return (node, ← restore { p with fonts })
  | .canvasRenderTransform | .pathRenderTransform | .glyphsRenderTransform =>
    match ← node.requiredChildTransform "MatrixTransform" with
    | (some t, node) => return (node, p.compose t)
    | (none, node) => return (node, p)
  | .pathFill | .pathStroke | .glyphsFill => return (← node.forwardSingleChild, p)
  | .matrixTransform => return (← node.resolveMatrix, p)
  | .solidColorBrush =>
    let brush ← Brush.ofSolidColor node.attributes
    return ({ node with data := some (.brush brush) }, p)
  | .imageBrush =>
    let (transform, node) := node.childTransform "ImageBrush.Transform"
    let brush ← Brush.ofImage node.attributes transform context
    return ({ node with data := some (.brush brush) }, p)
  | .imageBrushTransform =>
    let (transform, node) ← node.requiredChildTransform "MatrixTransform"
    return ({ node with data := transform.map .transform }, p)
  | .fixedPage | .unknown => return (node, p)

def stop (context : PageContext) (p : Painter σ) (name : String) : Journaled (Painter σ) := do
  match ← p.scopes.pop name with
  | (none, _) => return p
  | (some node, scopes) =>
    let (node, p) ← process context { p with scopes } node
    return { p with scopes := p.scopes.attach node }

def step (context : PageContext) (p : Painter σ) : MarkupEvent → Journaled (Painter σ)
  | .document => return p
  | .start name attributes => p.start name attributes
  | .stop name => stop context p name

/-- Follows events in order. -/
def run (context : PageContext) (p : Painter σ) (events : List MarkupEvent) :
    Journaled (Painter σ) :=
  events.foldlM (step context) p

end Painter

end Xps
