import Xps.Page.Painter
import Xps.Page.TextCollector
import Xps.Proofs.Journal.View

/-!
# What computations write down

A property of all entries of a journal is a property of the entries of each step (`all_bind`). The
steps that read attribute values, path data and brushes only report (`Reports`): what they write
down are notices. Fonts and images are looked for in parts that attributes refer to, and painting
and placing, once the font is there, add nothing but marks (`Entry.OfMarks`).
-/

namespace Xps

namespace Journaled

variable {α β : Type}

/-- Every entry of the journal has a property. -/
def All (P : Entry → Prop) (x : Journaled α) : Prop := ∀ e ∈ x.entries, P e

variable {P : Entry → Prop}

@[simp] theorem all_pure (a : α) : (pure a : Journaled α).All P := fun _ h => nomatch h

@[simp] theorem all_bind {x : Journaled α} {f : α → Journaled β} :
    (x >>= f).All P ↔ x.All P ∧ (f x.value).All P := List.forall_mem_append

@[simp] theorem all_map {x : Journaled α} {f : α → β} : (f <$> x).All P ↔ x.All P := by
  rw [← bind_pure_comp, all_bind]
  exact and_iff_left (all_pure _)

@[simp] theorem all_write {e : Entry} : (write e).All P ↔ P e := List.forall_mem_singleton

theorem all_foldlM {ι : Type} {step : α → ι → Journaled α} (h : ∀ a i, (step a i).All P)
    (is : List ι) (a : α) : (is.foldlM step a).All P := by
  induction is generalizing a with
  | nil => exact all_pure a
  | cons i is ih =>
    rw [List.foldlM_cons, all_bind]
    exact ⟨h a i, ih _⟩

theorem All.imp {Q : Entry → Prop} {x : Journaled α} (h : x.All P) (hPQ : ∀ e, P e → Q e) :
    x.All Q := fun e he => hPQ e (h e he)

/-- A view without any of the entries shows nothing. -/
theorem All.view {V : Type} {f : Entry → Option V} {x : Journaled α}
    (h : x.All fun e => f e = none) : x.view f = [] := List.filterMap_eq_nil_iff.2 h

/-- Nothing but notices is written down. -/
def Reports (x : Journaled α) : Prop := x.All fun e => ∃ n, e = .notice n

@[simp] theorem reports_pure (a : α) : (pure a : Journaled α).Reports := all_pure a

@[simp] theorem reports_bind {x : Journaled α} {f : α → Journaled β} :
    (x >>= f).Reports ↔ x.Reports ∧ (f x.value).Reports := all_bind

@[simp] theorem reports_map {x : Journaled α} {f : α → β} : (f <$> x).Reports ↔ x.Reports := all_map

@[simp] theorem reports_note (n : Notice) : (note n).Reports := all_write.2 ⟨n, rfl⟩

@[simp] theorem reports_noteNone (x : Option α) (n : Notice) : (noteNone x n).Reports := by
  unfold noteNone
  split <;> simp

theorem Reports.all {x : Journaled α} (h : x.Reports) (hP : ∀ n, P (.notice n)) : x.All P := by
  intro e he
  obtain ⟨n, rfl⟩ := h e he
  exact hP n

end Journaled

/-! ## Values -/

@[simp] theorem Attributes.reports_number (a : Attributes) (name : String) :
    (a.number? name).Reports := by
  unfold number?
  split <;> simp

@[simp] theorem Transform.reports_resolve (text : String) : (resolve text).Reports := by
  unfold resolve parse
  split
  · simp
  · split <;> simp

@[simp] theorem Color.reports_parse (text : String) : (parse text).Reports := by
  unfold parse
  split <;> simp

@[simp] theorem PathData.reports_parse (text : String) : (parse text).Reports := by
  have hmap (notices : List Notice) (data : PathData) :
      (⟨data, notices.map .notice⟩ : Journaled PathData).Reports := by
    intro e he
    obtain ⟨n, -, rfl⟩ := List.mem_map.1 he
    exact ⟨n, rfl⟩
  unfold parse
  split <;> exact hmap _ _

@[simp] theorem RasterImage.reports_decode (data : ByteArray) : (decode data).Reports := by
  unfold decode ofJpeg?
  split
  · simp
  · split <;> simp
  · simp

namespace Brush

@[simp] theorem reports_ofValue (value : String) : (ofValue value).Reports := by
  unfold ofValue
  split
  · simp
  · simp only [Journaled.reports_bind, Color.reports_parse, Journaled.reports_noteNone, true_and]
    split <;> simp

@[simp] theorem reports_opacity (attributes : Attributes) : (opacity attributes).Reports := by
  simp [opacity]

@[simp] theorem reports_ofSolidColor (attributes : Attributes) :
    (ofSolidColor attributes).Reports := by
  unfold ofSolidColor
  split
  · simp
  · simp only [Journaled.reports_bind, reports_ofValue, true_and]
    split <;> simp

end Brush

/-! ## Images -/

/-- What may be written down while the image of a part is looked for. -/
def Entry.OfImage (part : String) : Entry → Prop
  | notice _ => True
  | lookUp name => name = part
  | _ => False

/-- The image of a brush is looked for in a part that its attributes refer to. -/
theorem Brush.ofImage_ofImage (attributes : Attributes) (t : Option Transform)
    (context : PageContext) :
    (ofImage attributes t context).All
      fun e => ∃ reference, e.OfImage (PartName.resolve context.partName reference) := by
  have hreports {α : Type} {x : Journaled α} (h : x.Reports) : x.All
      fun e => ∃ reference, e.OfImage (PartName.resolve context.partName reference) :=
    h.all fun _ => ⟨"", trivial⟩
  have hload : (loadImage attributes context).All
      fun e => ∃ reference, e.OfImage (PartName.resolve context.partName reference) := by
    unfold loadImage
    simp only [Journaled.all_bind, hreports (Journaled.reports_noteNone _ _), true_and]
    split
    · simp
    · rename_i source _
      have hread : (context.archive.read (PartName.resolve context.partName source)).All
          fun e => ∃ reference, e.OfImage (PartName.resolve context.partName reference) :=
        Journaled.all_bind.2 ⟨Journaled.all_write.2 ⟨source, rfl⟩, Journaled.all_pure _⟩
      split
      · simp [hreports]
      · simp only [Journaled.all_bind, hread, true_and]
        split <;> simp [hreports]
  unfold ofImage
  simp only [Journaled.all_bind, hload, true_and]
  split
  · simp
  · simp only [Journaled.all_bind, hreports (Journaled.reports_noteNone _ _), true_and]
    split
    · simp
    · simp only [Journaled.all_bind, hreports (Journaled.reports_noteNone _ _), true_and]
      split
      · simp
      · split <;> simp [hreports]

/-! ## Elements -/

namespace Node

@[simp] theorem reports_requiredChildTransform (n : Node) (name : String) :
    (n.requiredChildTransform name).Reports := by
  simp [requiredChildTransform]

@[simp] theorem reports_forwardSingleChild (n : Node) : n.forwardSingleChild.Reports := by
  unfold forwardSingleChild
  by_cases h : n.children.length = 1 <;> simp [h]

@[simp] theorem reports_resolveMatrix (n : Node) : n.resolveMatrix.Reports := by
  unfold resolveMatrix
  split <;> simp

end Node

@[simp] theorem ScopeStack.reports_pop (s : ScopeStack) (name : String) : (s.pop name).Reports := by
  unfold pop
  split
  · simp
  · split <;> simp

@[simp] theorem Glyphs.reports_origin (attributes : Attributes) : (origin attributes).Reports := by
  simp [origin]

/-! ## Fonts -/

/-- What may be written down while the font of a part is looked for. -/
def Entry.OfFont (part : String) : Entry → Prop
  | notice _ | load _ => True
  | lookUp name | request name _ => name = part
  | paint _ | place _ => False

section fonts

open Entry (OfFont)

theorem Journaled.Reports.ofFont {α : Type} {x : Journaled α} (h : x.Reports) (part : String) :
    x.All (OfFont part) := h.all fun _ => trivial

open Journaled.Reports (ofFont)

variable {σ : Type} [FontProvider σ]

namespace FontCache

theorem ofFont_provide (provider : σ) (data : ByteArray) (part : String) :
    (provide provider data).All (OfFont part) := by
  simp [provide, OfFont]

theorem ofFont_loadObfuscated (provider : σ) (part : String) (data : ByteArray) :
    (loadObfuscated provider part data).All (OfFont part) := by
  unfold loadObfuscated
  split
  · simp [ofFont]
  · split
    · simp [ofFont]
    · simp [ofFont, ofFont_provide]

theorem ofFont_load (provider : σ) (archive : Archive) (part : String) :
    (load provider archive part).All (OfFont part) := by
  have hread : (archive.read part).All (OfFont part) := by simp [Archive.read, OfFont]
  unfold load
  simp only [Journaled.all_bind, hread, true_and]
  split
  · simp [ofFont]
  · simp only [Journaled.all_bind, ofFont_provide, true_and]
    split <;> simp [ofFont_loadObfuscated]

theorem ofFont_resolve (c : FontCache σ) (archive : Archive) (part : String) (size : Float32) :
    (c.resolve archive part size).All (OfFont part) := by
  unfold resolve
  simp only [Journaled.all_bind, Journaled.all_write, OfFont, true_and]
  split <;> simp [ofFont_load]

end FontCache

/-- The font of a run is looked for in a part that its attributes refer to. -/
theorem Glyphs.ofFont_font (attributes : Attributes) (context : PageContext) (fonts : FontCache σ) :
    (font attributes context fonts).All
      fun e => ∃ reference, OfFont (PartName.resolve context.partName reference) e := by
  have hreports {α : Type} {x : Journaled α} (h : x.Reports) : x.All
      fun e => ∃ reference, OfFont (PartName.resolve context.partName reference) e :=
    (ofFont h (PartName.resolve context.partName "")).imp fun _ he => ⟨"", he⟩
  unfold font
  simp only [Journaled.all_bind, hreports (Journaled.reports_noteNone _ _), true_and]
  split
  · simp
  · rename_i uri _
    simp only [Journaled.all_bind, hreports (Journaled.reports_noteNone _ _),
      hreports (Attributes.reports_number _ _), true_and]
    split
    · simp
    · rename_i size _
      have hresolve := (fonts.ofFont_resolve context.archive
        (PartName.resolve context.partName uri) size).imp
          fun _ he => (⟨uri, he⟩ : ∃ reference, OfFont (PartName.resolve _ reference) _)
      simp [hreports, hresolve]

end fonts

/-! ## Following events -/

namespace Painter

@[simp] theorem reports_brush (n : Node) (name property : String) :
    (brush n name property).Reports := by
  unfold brush
  split <;> simp

@[simp] theorem reports_stroke (attributes : Attributes) : (stroke attributes).Reports := by
  unfold stroke
  simp only [Journaled.reports_bind, Attributes.reports_number, true_and]
  split <;> simp

@[simp] theorem reports_elementFrame (attributes : Attributes) (frame : Frame) :
    (elementFrame attributes frame).Reports := by
  unfold elementFrame
  split <;> simp

@[simp] theorem reports_geometry (attributes : Attributes) : (geometry attributes).Reports := by
  unfold geometry
  split
  · simp
  · split <;> simp

@[simp] theorem reports_restore {σ : Type} (p : Painter σ) : p.restore.Reports := by
  unfold restore
  split <;> simp

@[simp] theorem reports_start {σ : Type} (p : Painter σ) (name : String) (attributes : Attributes) :
    (p.start name attributes).Reports := by
  unfold start enterCanvas
  by_cases h : ElementKind.ofName name = .canvas <;> simp [h]

end Painter

namespace TextCollector

@[simp] theorem reports_restore {σ : Type} (c : TextCollector σ) : c.restore.Reports := by
  unfold restore
  split <;> simp

@[simp] theorem reports_composeAttribute {σ : Type} (c : TextCollector σ)
    (attributes : Attributes) : (c.composeAttribute attributes).Reports := by
  unfold composeAttribute
  split <;> simp

@[simp] theorem reports_start {σ : Type} (c : TextCollector σ) (name : String)
    (attributes : Attributes) : (c.start name attributes).Reports := by
  unfold start
  split <;> simp

end TextCollector

/-! ## Marks on a page -/

/-- What may be written down while marks are put on a page. -/
def Entry.OfMarks : Entry → Prop
  | notice _ | paint _ | place _ => True
  | _ => False

section marks

open Entry (OfMarks)

theorem Journaled.Reports.ofMarks {α : Type} {x : Journaled α} (h : x.Reports) : x.All OfMarks :=
  h.all fun _ => trivial

open Journaled.Reports (ofMarks)

namespace Painter

theorem ofMarks_call (outline : Outline) (coverage : Coverage) (paint : Paint) (frame : Frame)
    (context : PageContext) : (call outline coverage paint frame context).All OfMarks := by
  simp [call, OfMarks]

theorem ofMarks_paintPath (state : PaintState) (context : PageContext) (n : Node) :
    (paintPath state context n).All OfMarks := by
  unfold paintPath
  simp only [Journaled.all_bind, ofMarks (reports_geometry _), true_and]
  split
  · simp
  · split
    · simp
    · simp only [Journaled.all_bind, ofMarks (reports_brush _ _ _),
        ofMarks (Brush.reports_opacity _), ofMarks (reports_elementFrame _ _), true_and]
      split <;> split <;> simp [ofMarks, ofMarks_call]

theorem ofMarks_paintText {σ : Type} [FontProvider σ] (state : PaintState) (context : PageContext)
    (provider : σ) (font : Font) (n : Node) :
    (paintText state context provider font n).All OfMarks := by
  unfold paintText
  simp only [Journaled.all_bind, ofMarks (reports_brush _ _ _), true_and]
  split
  · simp
  · simp only [Journaled.all_bind, ofMarks (Brush.reports_opacity _),
      ofMarks (reports_elementFrame _ _), true_and]
    split
    · simp
    · simp only [Journaled.all_bind, ofMarks (Glyphs.reports_origin _), true_and]
      split <;> simp [ofMarks_call]

end Painter

theorem TextCollector.ofMarks_placeText {σ : Type} [FontProvider σ] (provider : σ) (font : Font)
    (frame : Frame) (size : Size) (attributes : Attributes) :
    (placeText provider font frame size attributes).All OfMarks := by
  unfold placeText
  split
  · simp
  · simp only [Journaled.all_bind, ofMarks (Glyphs.reports_origin _), true_and]
    split
    · simp [ofMarks]
    · intro e he
      obtain ⟨c, -, rfl⟩ := List.mem_map.1 he
      trivial

end marks

end Xps
