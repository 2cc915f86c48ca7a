import Xps.Proofs.Journal.Reports
import Xps.Proofs.PathData.Reading

/-!
# Notices about nesting

Four notices say that something does not nest: an end that closes another element or none, and a
state that is given back without having been saved. Attribute values, path data, brushes, fonts and
images have nothing to do with nesting, and reading them is quiet about it (`Quiet`).
-/

namespace Xps

/-- Something does not nest. -/
@[simp]
def Notice.isNesting : Notice → Bool
  | endMismatch .. | endUnopened _ | unbalancedState | unbalancedTransform => true
  | _ => false

@[simp]
def Entry.isNesting : Entry → Bool
  | notice n => n.isNesting
  | _ => false

namespace Journaled

variable {α β : Type}

/-- Nothing is said about nesting. -/
def Quiet (x : Journaled α) : Prop := x.All fun e => e.isNesting = false

@[simp] theorem quiet_pure (a : α) : (pure a : Journaled α).Quiet := all_pure a

@[simp] theorem quiet_bind {x : Journaled α} {f : α → Journaled β} :
    (x >>= f).Quiet ↔ x.Quiet ∧ (f x.value).Quiet := all_bind

@[simp] theorem quiet_map {x : Journaled α} {f : α → β} : (f <$> x).Quiet ↔ x.Quiet := all_map

@[simp] theorem quiet_write {e : Entry} : (write e).Quiet ↔ e.isNesting = false := all_write

@[simp] theorem quiet_note {n : Notice} : (note n).Quiet ↔ n.isNesting = false := all_write

@[simp] theorem quiet_noteNone (x : Option α) {n : Notice} :
    (noteNone x n).Quiet ↔ (x.isNone → n.isNesting = false) := by
  unfold noteNone
  cases x <;> simp

end Journaled

/-! ## Values -/

@[simp] theorem Attributes.quiet_number (a : Attributes) (name : String) :
    (a.number? name).Quiet := by
  unfold number?
  split <;> simp

@[simp] theorem Transform.quiet_resolve (text : String) : (resolve text).Quiet := by
  unfold resolve parse
  split
  · simp
  · split <;> simp

@[simp] theorem Color.quiet_parse (text : String) : (parse text).Quiet := by
  unfold parse
  split <;> simp

@[simp] theorem PathData.quiet_parse (text : String) : (parse text).Quiet := by
  obtain ⟨-, details, hdetails, hentries⟩ := parse_eq_statements text
  intro e he
  rw [hentries] at he
  obtain ⟨n, hn, rfl⟩ := List.mem_map.1 he
  rcases List.mem_append.1 hn with hn | hn
  · have := hdetails n hn
    cases n <;> first | rfl | cases this
  · obtain ⟨fault, -, rfl⟩ := List.mem_map.1 hn
    rfl

@[simp] theorem RasterImage.quiet_decode (data : ByteArray) : (decode data).Quiet := by
  unfold decode ofJpeg?
  split
  · simp
  · split <;> simp
  · simp

@[simp] theorem Archive.quiet_read (a : Archive) (name : String) : (a.read name).Quiet := by
  simp [read]

namespace Brush

@[simp] theorem quiet_ofValue (value : String) : (ofValue value).Quiet := by
  unfold ofValue
  split
  · simp
  · simp only [Journaled.quiet_bind, Color.quiet_parse, Journaled.quiet_noteNone, true_and]
    split <;> simp

@[simp] theorem quiet_opacity (attributes : Attributes) : (opacity attributes).Quiet := by
  simp [opacity]

@[simp] theorem quiet_ofSolidColor (attributes : Attributes) :
    (ofSolidColor attributes).Quiet := by
  unfold ofSolidColor
  split
  · simp
  · simp only [Journaled.quiet_bind, quiet_ofValue, true_and]
    split <;> simp

@[simp] theorem quiet_loadImage (attributes : Attributes) (context : PageContext) :
    (loadImage attributes context).Quiet := by
  unfold loadImage
  simp only [Journaled.quiet_bind, Journaled.quiet_noteNone, Notice.isNesting, implies_true,
    true_and]
  split
  · simp
  · split
    · simp
    · simp only [Journaled.quiet_bind, Archive.quiet_read, true_and]
      split <;> simp

@[simp] theorem quiet_ofImage (attributes : Attributes) (transform : Option Transform)
    (context : PageContext) : (ofImage attributes transform context).Quiet := by
  unfold ofImage
  simp only [Journaled.quiet_bind, quiet_loadImage, true_and]
  split
  · simp
  · simp only [Journaled.quiet_bind, Journaled.quiet_noteNone, Notice.isNesting, implies_true,
      true_and]
    split
    · simp
    · simp only [Journaled.quiet_bind, Journaled.quiet_noteNone, Notice.isNesting, implies_true,
        true_and]
      split
      · simp
      · split <;> simp

end Brush

/-! ## Elements -/

namespace Node

@[simp] theorem quiet_requiredChildTransform (n : Node) (name : String) :
    (n.requiredChildTransform name).Quiet := by
  simp [requiredChildTransform]

@[simp] theorem quiet_forwardSingleChild (n : Node) : n.forwardSingleChild.Quiet := by
  unfold forwardSingleChild
  by_cases h : n.children.length = 1 <;> simp [h]

@[simp] theorem quiet_resolveMatrix (n : Node) : n.resolveMatrix.Quiet := by
  unfold resolveMatrix
  split <;> simp

end Node

section fonts

variable {σ : Type} [FontProvider σ]

namespace FontCache

@[simp] theorem quiet_provide (provider : σ) (data : ByteArray) :
    (provide provider data).Quiet := by
  simp [provide]

@[simp] theorem quiet_loadObfuscated (provider : σ) (part : String) (data : ByteArray) :
    (loadObfuscated provider part data).Quiet := by
  unfold loadObfuscated
  split
  · simp
  · split <;> simp

@[simp] theorem quiet_load (provider : σ) (archive : Archive) (part : String) :
    (load provider archive part).Quiet := by
  unfold load
  simp only [Journaled.quiet_bind, Archive.quiet_read, true_and]
  split
  · simp
  · simp only [Journaled.quiet_bind, quiet_provide, true_and]
    split <;> simp

@[simp] theorem quiet_resolve (c : FontCache σ) (archive : Archive) (part : String)
    (size : Float32) : (c.resolve archive part size).Quiet := by
  unfold resolve
  simp only [Journaled.quiet_bind, Journaled.quiet_write, Entry.isNesting, true_and]
  split <;> simp

end FontCache

namespace Glyphs

@[simp] theorem quiet_origin (attributes : Attributes) : (origin attributes).Quiet := by
  simp [origin]

@[simp] theorem quiet_font (attributes : Attributes) (context : PageContext)
    (fonts : FontCache σ) : (font attributes context fonts).Quiet := by
  unfold font
  simp only [Journaled.quiet_bind, Journaled.quiet_noteNone, Notice.isNesting, implies_true,
    true_and]
  split
  · simp
  · simp only [Journaled.quiet_bind, Journaled.quiet_noteNone, Notice.isNesting, implies_true,
      Attributes.quiet_number, true_and]
    split <;> simp

end Glyphs

/-! ## What is painted and placed -/

namespace Painter

@[simp] theorem quiet_brush (n : Node) (name property : String) :
    (brush n name property).Quiet := by
  unfold brush
  split <;> simp

@[simp] theorem quiet_stroke (attributes : Attributes) : (stroke attributes).Quiet := by
  unfold stroke
  simp only [Journaled.quiet_bind, Attributes.quiet_number, true_and]
  split <;> simp

@[simp] theorem quiet_elementFrame (attributes : Attributes) (frame : Frame) :
    (elementFrame attributes frame).Quiet := by
  unfold elementFrame
  split <;> simp

@[simp] theorem quiet_geometry (attributes : Attributes) : (geometry attributes).Quiet := by
  unfold geometry
  split
  · simp
  · split <;> simp

@[simp] theorem quiet_call (outline : Outline) (coverage : Coverage) (paint : Paint) (frame : Frame)
    (context : PageContext) : (call outline coverage paint frame context).Quiet := by
  simp [call]

@[simp] theorem quiet_paintPath (state : PaintState) (context : PageContext) (n : Node) :
    (paintPath state context n).Quiet := by
  unfold paintPath
  simp only [Journaled.quiet_bind, quiet_geometry, true_and]
  split
  · simp
  · split
    · simp
    · simp only [Journaled.quiet_bind, quiet_brush, Brush.quiet_opacity, quiet_elementFrame,
        true_and]
      split <;> split <;> simp

@[simp] theorem quiet_paintText (state : PaintState) (context : PageContext) (provider : σ)
    (font : Font) (n : Node) : (paintText state context provider font n).Quiet := by
  unfold paintText
  simp only [Journaled.quiet_bind, quiet_brush, true_and]
  split
  · simp
  · simp only [Journaled.quiet_bind, Brush.quiet_opacity, quiet_elementFrame, true_and]
    split
    · simp
    · simp only [Journaled.quiet_bind, Glyphs.quiet_origin, true_and]
      split <;> simp

@[simp] theorem quiet_paintGlyphs (state : PaintState) (context : PageContext)
    (fonts : FontCache σ) (n : Node) : (paintGlyphs state context fonts n).Quiet := by
  unfold paintGlyphs
  simp only [Journaled.quiet_bind, Glyphs.quiet_font, true_and]
  split <;> simp

omit [FontProvider σ] in
@[simp] theorem quiet_start (p : Painter σ) (name : String) (attributes : Attributes) :
    (p.start name attributes).Quiet := by
  unfold start enterCanvas
  by_cases h : ElementKind.ofName name = .canvas <;> simp [h]

end Painter

namespace TextCollector

omit [FontProvider σ] in
@[simp] theorem quiet_composeAttribute (c : TextCollector σ) (attributes : Attributes) :
    (c.composeAttribute attributes).Quiet := by
  unfold composeAttribute
  split <;> simp

omit [FontProvider σ] in
@[simp] theorem quiet_start (c : TextCollector σ) (name : String) (attributes : Attributes) :
    (c.start name attributes).Quiet := by
  unfold start
  split <;> simp

@[simp] theorem quiet_placeText (provider : σ) (font : Font) (frame : Frame) (size : Size)
    (attributes : Attributes) : (placeText provider font frame size attributes).Quiet := by
  unfold placeText
  split
  · simp
  · simp only [Journaled.quiet_bind, Glyphs.quiet_origin, true_and]
    split
    · simp
    · intro e he
      obtain ⟨c, -, rfl⟩ := List.mem_map.1 he
      rfl

@[simp] theorem quiet_placeGlyphs (frame : Frame) (context : PageContext) (fonts : FontCache σ)
    (attributes : Attributes) : (placeGlyphs frame context fonts attributes).Quiet := by
  unfold placeGlyphs
  simp only [Journaled.quiet_bind, Glyphs.quiet_font, true_and]
  split <;> simp

end TextCollector

end fonts

end Xps
