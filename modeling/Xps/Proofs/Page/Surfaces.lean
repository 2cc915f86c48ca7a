import Mathlib.Data.List.Forall2
import Xps.Proofs.Page.FontUse
import Xps.Proofs.Page.Truncation

/-!
# Surfaces

A page is painted onto a surface: a base transform, and the size and options of its context. On
another surface the same is painted, and all else that is done is the same, but for the base of each
frame and the smoothing of edges. No choice on the way depends on any of these.

So moving a painter to another surface and running it is running it and moving all that comes of it
(`Painter.run_onto`), as long as that is true of each step. Two surfaces are compared by moving one
run to the other.
-/

namespace Xps

open Journaled

/-- What a page is painted onto. -/
structure Surface where
  base : Transform
  size : Size
  options : Options

/-! ## Moving to a surface -/

section

variable (s : Surface)

def PageContext.onto (context : PageContext) : PageContext :=
  { context with size := s.size, options := s.options }

def Frame.onto (f : Frame) : Frame := { f with base := s.base }

def PaintState.onto (state : PaintState) : PaintState :=
  { state with frame := state.frame.onto s }

def Painter.onto {σ : Type} (p : Painter σ) : Painter σ :=
  { p with state := p.state.onto s, saved := p.saved.map (·.onto s) }

def PaintCall.onto (call : PaintCall) : PaintCall :=
  { call with frame := call.frame.onto s, antiAlias := s.options.antiAlias }

def Entry.onto : Entry → Entry
  | paint call => paint (call.onto s)
  | e => e

@[simp] theorem PaintState.frame_onto (state : PaintState) :
    (state.onto s).frame = state.frame.onto s := rfl

@[simp] theorem PaintState.opacity_onto (state : PaintState) :
    (state.onto s).opacity = state.opacity := rfl

@[simp] theorem Painter.state_onto {σ : Type} (p : Painter σ) :
    (p.onto s).state = p.state.onto s := rfl

@[simp] theorem Painter.fonts_onto {σ : Type} (p : Painter σ) : (p.onto s).fonts = p.fonts := rfl

end

/-- One mark on two surfaces. All of it is the same, but for the base of the frame and the smoothing
of edges, which are those of the surface. -/
structure PaintCall.SameMark (first second : Surface) (a b : PaintCall) : Prop where
  outline : a.outline = b.outline
  coverage : a.coverage = b.coverage
  paint : a.paint = b.paint
  frames : ∃ composed, a.frame = ⟨first.base, composed⟩ ∧ b.frame = ⟨second.base, composed⟩
  smoothing : a.antiAlias = first.options.antiAlias ∧ b.antiAlias = second.options.antiAlias

/-- A mark is the same on all surfaces that it is moved to. -/
theorem PaintCall.sameMark_onto (first second : Surface) (call : PaintCall) :
    SameMark first second (call.onto first) (call.onto second) :=
  ⟨rfl, rfl, rfl, ⟨call.frame.composed, rfl, rfl⟩, rfl, rfl⟩

namespace Journaled

variable {α β : Type} {s : Surface}

/-- Moves what is painted. -/
def onto (s : Surface) (x : Journaled α) : Journaled α := ⟨x.value, x.entries.map (·.onto s)⟩

@[simp] theorem onto_pure (a : α) : (pure a : Journaled α).onto s = pure a := rfl

@[simp] theorem onto_bind (x : Journaled α) (f : α → Journaled β) :
    (x >>= f).onto s = x.onto s >>= fun a => (f a).onto s := by
  show (⟨_, (x.entries ++ (f x.value).entries).map _⟩ : Journaled β) = ⟨_, _ ++ _⟩
  rw [List.map_append]
  rfl

@[simp] theorem onto_map (x : Journaled α) (f : α → β) : (f <$> x).onto s = f <$> x.onto s := by
  rw [← bind_pure_comp, onto_bind, ← bind_pure_comp]
  rfl

/-- Where nothing is painted, nothing moves. -/
theorem All.onto_eq {x : Journaled α} (h : x.All fun e => e.paint? = none) : x.onto s = x := by
  have hentries : x.entries.map (·.onto s) = x.entries := by
    refine (List.map_congr_left fun e he => ?_).trans (List.map_id _)
    have hpaint := h e he
    cases e <;> first | rfl | cases hpaint
  show (⟨x.value, _⟩ : Journaled α) = _
  rw [hentries]

theorem Reports.onto_eq {x : Journaled α} (h : x.Reports) : x.onto s = x :=
  All.onto_eq (h.all fun _ => rfl)

/-- The paintings are moved one by one. -/
theorem paintCalls_onto (x : Journaled α) :
    (x.onto s).paintCalls = x.paintCalls.map (·.onto s) := by
  unfold paintCalls onto
  rw [List.filterMap_map, List.map_filterMap]
  congr 1
  funext e
  cases e <;> rfl

end Journaled

variable {s : Surface}

/-! ## What paints nothing -/

theorem Brush.onto_ofImage (attributes : Attributes) (t : Option Transform)
    (context : PageContext) :
    (ofImage attributes t context).onto s = ofImage attributes t context := by
  refine All.onto_eq ((ofImage_ofImage attributes t context).imp fun e he => ?_)
  obtain ⟨reference, he⟩ := he
  cases e <;> first | rfl | cases he

theorem Glyphs.onto_font {σ : Type} [FontProvider σ] (attributes : Attributes)
    (context : PageContext) (fonts : FontCache σ) :
    (font attributes context fonts).onto s = font attributes context fonts := by
  refine All.onto_eq ((ofFont_font attributes context fonts).imp fun e he => ?_)
  obtain ⟨reference, he⟩ := he
  cases e <;> first | rfl | cases he

namespace Painter

/-! ## Elements -/

theorem elementFrame_onto (attributes : Attributes) (f : Frame) :
    elementFrame attributes (f.onto s) = Frame.onto s <$> elementFrame attributes f := by
  unfold elementFrame
  cases attributes.get? "RenderTransform" with
  | none => rfl
  | some value => simp [Frame.compose, Frame.onto]

theorem call_onto (outline : Outline) (coverage : Coverage) (paint : Paint) (f : Frame)
    (context : PageContext) :
    call outline coverage paint (f.onto s) (context.onto s) =
      (call outline coverage paint f context).onto s := rfl

theorem paintPath_onto (state : PaintState) (context : PageContext) (n : Node) :
    paintPath (state.onto s) (context.onto s) n = (paintPath state context n).onto s := by
  unfold paintPath
  simp only [onto_bind, Reports.onto_eq (reports_geometry _)]
  refine bind_congr fun data => ?_
  cases data with
  | none => rfl
  | some data =>
    dsimp only
    cases data.outline? with
    | none => rfl
    | some outline =>
      simp only [onto_bind, PaintState.frame_onto, PaintState.opacity_onto, elementFrame_onto,
        bind_map_left, Reports.onto_eq (reports_brush _ _ _),
        Reports.onto_eq (Brush.reports_opacity _), Reports.onto_eq (reports_elementFrame _ _)]
      refine bind_congr fun ⟨fill, n⟩ => ?_
      refine bind_congr fun ⟨line, n⟩ => ?_
      refine bind_congr fun opacity => ?_
      refine bind_congr fun f => ?_
      cases fill.paint? (state.opacity * opacity) <;> cases line.paint? (state.opacity * opacity) <;>
        simp [call_onto, Reports.onto_eq]

variable {σ : Type} [FontProvider σ]

theorem paintText_onto (state : PaintState) (context : PageContext) (provider : σ) (font : Font)
    (n : Node) :
    paintText (state.onto s) (context.onto s) provider font n =
      (paintText state context provider font n).onto s := by
  unfold paintText
  simp only [onto_bind, Reports.onto_eq (reports_brush _ _ _)]
  refine bind_congr fun ⟨fill, n⟩ => ?_
  dsimp only
  cases Glyphs.text? n.attributes with
  | none => rfl
  | some text =>
    simp only [onto_bind, PaintState.frame_onto, PaintState.opacity_onto, elementFrame_onto,
      bind_map_left, Reports.onto_eq (Brush.reports_opacity _),
      Reports.onto_eq (reports_elementFrame _ _)]
    refine bind_congr fun opacity => ?_
    refine bind_congr fun f => ?_
    cases fill.paint? (state.opacity * opacity) with
    | none => rfl
    | some paint =>
      simp only [onto_bind, Reports.onto_eq (Glyphs.reports_origin _)]
      refine bind_congr fun origin => ?_
      cases textOutline? provider font origin text <;> simp [call_onto]

theorem paintGlyphs_onto (state : PaintState) (context : PageContext) (fonts : FontCache σ)
    (n : Node) :
    paintGlyphs (state.onto s) (context.onto s) fonts n =
      (paintGlyphs state context fonts n).onto s := by
  unfold paintGlyphs
  rw [onto_bind, Glyphs.onto_font]
  -- The font of a run depends on the archive and the part name of a context alone.
  show (Glyphs.font n.attributes context fonts >>= _) = _
  refine bind_congr fun ⟨found, fonts⟩ => ?_
  cases found with
  | none => rfl
  | some font => simp [paintText_onto]

/-! ## Events -/

omit [FontProvider σ] in
theorem restore_onto (p : Painter σ) : (p.onto s).restore = Painter.onto s <$> p.restore := by
  cases hsaved : p.saved <;> simp [restore, onto, hsaved]

omit [FontProvider σ] in
theorem enter_onto (name : String) (attributes : Attributes) (state : PaintState) :
    TreePainter.enter name attributes (state.onto s) =
      PaintState.onto s <$> TreePainter.enter name attributes state := by
  unfold TreePainter.enter
  split
  · simp [elementFrame_onto, PaintState.onto]
  · rfl

omit [FontProvider σ] in
theorem start_onto (p : Painter σ) (name : String) (attributes : Attributes) :
    (p.onto s).start name attributes = Painter.onto s <$> p.start name attributes := by
  have hinside (inner : PaintState) :
      (p.onto s).inside name attributes (inner.onto s) =
        (p.inside name attributes inner).onto s := by
    unfold inside
    cases (ElementKind.ofName name).isScope <;> rfl
  rw [start_eq, start_eq, state_onto, enter_onto]
  simp [hinside]

theorem process_onto (context : PageContext) (p : Painter σ) (n : Node) :
    process (context.onto s) (p.onto s) n =
      ((fun x => (x.1, x.2.onto s)) <$> process context p n).onto s := by
  unfold process
  cases n.kind
  case canvas => simp [restore_onto, Reports.onto_eq]
  case path => simp [paintPath_onto, restore_onto, Reports.onto_eq]
  case glyphs =>
    simp only [state_onto, fonts_onto, paintGlyphs_onto, onto_map, map_bind, onto_bind]
    refine bind_congr fun x => ?_
    have hrestore : restore { p.onto s with fonts := x.2 } =
        Painter.onto s <$> restore { p with fonts := x.2 } := restore_onto { p with fonts := x.2 }
    refine (congrArg (· >>= _) hrestore).trans ?_
    simp [Reports.onto_eq]
  case canvasRenderTransform | pathRenderTransform | glyphsRenderTransform =>
    simp only [onto_map, map_bind, onto_bind,
      Reports.onto_eq (Node.reports_requiredChildTransform _ _)]
    refine bind_congr fun x => ?_
    rcases x with ⟨_ | t, n⟩ <;> rfl
  case imageBrush =>
    simp only [onto_map, map_bind, onto_bind, Brush.onto_ofImage]
    rfl
  all_goals simp [Reports.onto_eq]

theorem stop_onto (context : PageContext) (p : Painter σ) (name : String) :
    stop (context.onto s) (p.onto s) name = (Painter.onto s <$> stop context p name).onto s := by
  unfold stop
  simp only [onto_map, map_bind, onto_bind, Reports.onto_eq (ScopeStack.reports_pop _ _)]
  refine bind_congr fun x => ?_
  rcases x with ⟨_ | n, scopes⟩
  · rfl
  · have hprocess : process (context.onto s) { p.onto s with scopes } n =
        ((fun x => (x.1, x.2.onto s)) <$> process context { p with scopes } n).onto s :=
      process_onto context { p with scopes } n
    refine (congrArg (· >>= _) hprocess).trans ?_
    rw [onto_map, bind_map_left]
    dsimp only
    rw [onto_bind, map_bind]
    rfl

theorem step_onto (context : PageContext) (p : Painter σ) (e : MarkupEvent) :
    step (context.onto s) (p.onto s) e = (Painter.onto s <$> step context p e).onto s := by
  cases e with
  | document => rfl
  | start name attributes =>
    have hreports := Reports.onto_eq (s := s) (reports_start p name attributes)
    rw [onto_map]
    show (p.onto s).start name attributes = Painter.onto s <$> (p.start name attributes).onto s
    rw [hreports, start_onto]
  | stop name => exact stop_onto context p name

theorem run_onto (context : PageContext) (p : Painter σ) (events : List MarkupEvent) :
    run (context.onto s) (p.onto s) events = (Painter.onto s <$> run context p events).onto s := by
  unfold run
  induction events generalizing p with
  | nil => rfl
  | cons e events ih =>
    rw [List.foldlM_cons, List.foldlM_cons, step_onto, onto_map, bind_map_left, map_bind, onto_bind]
    exact bind_congr fun p => ih p

end Painter

namespace Page

variable {σ : Type} [FontProvider σ]

/-- Markup that is painted onto another surface is painted alike. -/
theorem paintMarkup_onto (markup : String) (context : PageContext) (base : Transform)
    (fonts : FontCache σ) :
    paintMarkup markup (context.onto s) s.base fonts =
      (paintMarkup markup context base fonts).onto s := by
  have hrun (events : List MarkupEvent) :
      (painter s.base fonts).run (context.onto s) events =
        (Painter.onto s <$> (painter base fonts).run context events).onto s :=
    Painter.run_onto context (painter base fonts) events
  unfold paintMarkup
  rcases Markup.events markup with ⟨events, error⟩
  dsimp only
  rw [hrun, onto_map, bind_map_left, onto_bind]
  refine bind_congr fun p => ?_
  cases error <;> simp [Reports.onto_eq, Painter.onto, PageContext.onto]

/-- What a page of some size is painted onto, if it fills the whole target. -/
def surface (size : Size) (options : Options) (target : PixelSize) : Surface :=
  ⟨pageScale size target, size, options⟩

/-- A rendering is moved from any other painting of the markup. -/
theorem value_renderMarkup {target : PixelSize} (h : Canvas.fits target) (markup : String)
    (context : PageContext) (base : Transform) (fonts : FontCache σ) (size : Size)
    (options : Options) :
    let painted := paintMarkup markup context base fonts
    (renderMarkup markup ⟨context.archive, context.partName, size, options⟩ fonts target).value =
      (some ⟨target, options.background,
        painted.paintCalls.map (·.onto (surface size options target))⟩, painted.value) := by
  intro painted
  have honto : paintMarkup markup ⟨context.archive, context.partName, size, options⟩
      (pageScale size target) fonts = painted.onto (surface size options target) :=
    paintMarkup_onto (s := surface size options target) markup context base fonts
  have hcalls : Canvas.paint ⟨target, options.background, []⟩
      (painted.onto (surface size options target)).entries =
        ⟨target, options.background,
          painted.paintCalls.map (·.onto (surface size options target))⟩ :=
    congrArg (Canvas.mk target options.background) (paintCalls_onto painted)
  unfold renderMarkup Canvas.blank?
  rw [if_pos h]
  dsimp only
  rw [honto, hcalls]
  rfl

theorem sameMarks_onto (first second : Surface) (calls : List PaintCall) :
    List.Forall₂ (PaintCall.SameMark first second) (calls.map (·.onto first))
      (calls.map (·.onto second)) :=
  List.forall₂_map_left_iff.2 <| List.forall₂_map_right_iff.2 <|
    List.forall₂_same.2 fun call _ => call.sameMark_onto first second

/-- **A page is the same on all surfaces.** Two renderings of a page, in any sizes, with any options
and onto any targets that fit, put the same marks on their canvases, one by one, and leave the same
fonts. A mark differs in the base of its frame, which is the scale of the page to the target, and in
the smoothing of its edges, which is that of the options. -/
theorem sameMarks_renderMarkup (markup : String) (archive : Archive) (partName : String)
    (fonts : FontCache σ) {size₁ size₂ : Size} {options₁ options₂ : Options}
    {target₁ target₂ : PixelSize} (h₁ : Canvas.fits target₁) (h₂ : Canvas.fits target₂) :
    let first := renderMarkup markup ⟨archive, partName, size₁, options₁⟩ fonts target₁
    let second := renderMarkup markup ⟨archive, partName, size₂, options₂⟩ fonts target₂
    ∃ canvas₁ canvas₂, first.value.1 = some canvas₁ ∧ second.value.1 = some canvas₂ ∧
      List.Forall₂
        (PaintCall.SameMark (surface size₁ options₁ target₁) (surface size₂ options₂ target₂))
        canvas₁.calls canvas₂.calls ∧
      first.value.2 = second.value.2 := by
  intro first second
  -- Both are moved from one painting, whose own surface does not matter.
  let context : PageContext := ⟨archive, partName, size₁, options₁⟩
  have hfirst : first.value = _ :=
    value_renderMarkup h₁ markup context .identity fonts size₁ options₁
  have hsecond : second.value = _ :=
    value_renderMarkup h₂ markup context .identity fonts size₂ options₂
  rw [hfirst, hsecond]
  exact ⟨_, _, rfl, rfl, sameMarks_onto _ _ _, rfl⟩

/-- A page with a red square, twice as large as it is drawn. -/
def squareMarkup : String :=
  "<FixedPage><Canvas RenderTransform=\"2,0,0,2,0,0\">" ++
    "<Path Data=\"M 1,1 L 2,1 2,2 1,2 Z\" Fill=\"#FF0000\"/></Canvas></FixedPage>"

/-- The square is one mark, whether it is painted small and smooth or large and sharp. -/
theorem sameMarks_renderMarkup_square :
    let size : Size := glyphsContext.size
    let smooth : Options := {}
    let sharp : Options := { antiAlias := false }
    let small : PixelSize := ⟨8, 8, by decide, by decide⟩
    let large : PixelSize := ⟨32, 24, by decide, by decide⟩
    let fonts : FontCache FontDatabase := ⟨{}, []⟩
    let first := renderMarkup squareMarkup ⟨glyphsContext.archive, "1.fpage", size, smooth⟩ fonts
      small
    let second := renderMarkup squareMarkup ⟨glyphsContext.archive, "1.fpage", size, sharp⟩ fonts
      large
    Canvas.fits small ∧ Canvas.fits large ∧ first.paintCalls.length = 1 ∧
      ∃ canvas₁ canvas₂, first.value.1 = some canvas₁ ∧ second.value.1 = some canvas₂ ∧
        List.Forall₂ (PaintCall.SameMark (surface size smooth small) (surface size sharp large))
          canvas₁.calls canvas₂.calls ∧
        first.value.2 = second.value.2 := by
  intro size smooth sharp small large fonts
  have hsmall : Canvas.fits small := by decide
  have hlarge : Canvas.fits large := by decide
  exact ⟨hsmall, hlarge, by decide +kernel,
    sameMarks_renderMarkup squareMarkup glyphsContext.archive "1.fpage" fonts hsmall hlarge⟩

end Page

end Xps
