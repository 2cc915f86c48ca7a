import Xps.Page.TextCollector
import Xps.Proofs.Page.TreePainter

/-!
# Reading a forest

The text of page markup without stacks. A forest is read from left to right in a frame, which gives
its runs of glyphs in the order of their ends, each with the frame that it is set in. A canvas and a
run of glyphs leave the frame as they found it. The runs that have a font with metrics are then set,
one character after the other.
-/

namespace Xps

/-! ## Frames -/

/-- A run of glyphs in the frame that it is set in. -/
structure GlyphRun where
  attributes : Attributes
  frame : Frame

namespace TreeReader

/-- The frame with the transform that an element has as an attribute. -/
def withAttribute (attributes : Attributes) (frame : Frame) : Frame :=
  (Painter.elementFrame attributes frame).value

/-- The frame inside of an element. Only a canvas changes it. -/
def enter (name : String) (attributes : Attributes) (frame : Frame) : Frame :=
  if ElementKind.ofName name = .canvas then withAttribute attributes frame else frame

/-- The run that an element is. Its own transform comes last. -/
def run? (name : String) (attributes : Attributes) (inside : Frame) : Option GlyphRun :=
  if ElementKind.ofName name = .glyphs then some ⟨attributes, withAttribute attributes inside⟩
  else none

/-- The frame behind an element with some matrix inside of it. -/
def leave (name : String) (matrix : Option Transform) (before inside : Frame) : Frame :=
  match ElementKind.ofName name with
  | .canvas | .glyphs => before
  | .canvasRenderTransform | .glyphsRenderTransform =>
    match matrix with
    | some t => inside.compose t
    | none => inside
  | _ => inside

end TreeReader

namespace Forest

/-- The matrix of the first `MatrixTransform` of a forest, not looking inside of its elements. -/
def matrix? : Forest → Option Transform
  | nil => none
  | cons name attributes _ rest =>
    if name = "MatrixTransform" then some (TreePainter.matrix attributes).value else rest.matrix?

open TreeReader in
/-- The runs of a forest in the order of their ends, and the frame behind it. -/
def read : Forest → Frame → List GlyphRun × Frame
  | nil, frame => ([], frame)
  | cons name attributes children rest, before =>
    let (runs, inside) := children.read (enter name attributes before)
    let (later, last) := rest.read (leave name children.matrix? before inside)
    (runs ++ ((run? name attributes inside).toList ++ later), last)

end Forest

/-! ## Characters -/

/-- The measures of a font in some size. -/
structure Typeface where
  /-- The height of a line. -/
  height : Float32
  /-- A character without an advance does not move the pen. -/
  advance : Char → Float32

namespace GlyphRun

/-- The text of a run. An escape in front does not belong to it. -/
def text (run : GlyphRun) : String :=
  Glyphs.dropEscape ((run.attributes.get? "UnicodeString").getD "")

/-- Sets characters side by side, beginning at `x` on the baseline `y`. -/
def setChars (typeface : Typeface) (frame : Frame) (size : Size) (y : Float32) :
    Float32 → List Char → List PlacedChar
  | _, [] => []
  | x, c :: text =>
    let next := x + typeface.advance c
    ⟨c, TextCollector.normalize frame.total size ⟨x, y - typeface.height, next, y⟩⟩ ::
      setChars typeface frame size y next text

/-- Sets a run from its origin on. -/
def set (run : GlyphRun) (typeface : Typeface) (size : Size) : List PlacedChar :=
  let origin := (Glyphs.origin run.attributes).value
  setChars typeface run.frame size origin.y origin.x run.text.toList

/-- Each character of a run is set once. -/
theorem characters_set (run : GlyphRun) (typeface : Typeface) (size : Size) :
    (run.set typeface size).map PlacedChar.character = run.text.toList := by
  unfold set
  generalize (Glyphs.origin run.attributes).value = origin
  generalize run.text.toList = text
  obtain ⟨x, y⟩ := origin
  dsimp only
  induction text generalizing x with
  | nil => rfl
  | cons c text ih => rw [setChars, List.map_cons, ih]

variable {σ : Type} [FontProvider σ]

/-- The typeface of a font, if it has metrics. -/
def typeface? (provider : σ) (font : Font) : Option Typeface := do
  let metrics ← FontProvider.metrics provider font.id
  return {
    height := metrics.height font.size
    advance := fun c =>
      (FontProvider.advance provider font.id c).getD 0 * metrics.scale font.size }

/-- The runs whose font is there and has metrics, with their typefaces. Each run looks for its font
in what the runs in front of it have left. -/
def typeset (context : PageContext) : FontCache σ → List GlyphRun → List (GlyphRun × Typeface)
  | _, [] => []
  | fonts, run :: runs =>
    let (font, fonts) := (Glyphs.font run.attributes context fonts).value
    let typeface := font.bind (typeface? fonts.provider)
    (typeface.map (run, ·)).toList ++ typeset context fonts runs

theorem typeset_cons (context : PageContext) (fonts : FontCache σ) (run : GlyphRun)
    (runs : List GlyphRun) :
    typeset context fonts (run :: runs) =
      typeset context fonts [run] ++
        typeset context (Glyphs.font run.attributes context fonts).value.2 runs := by
  simp [typeset]

end GlyphRun

end Xps
