import Xps.Page.Rendering
import Xps.Proofs.Markup.Nested
import Xps.Proofs.Page.SavedStates
import Xps.Proofs.Page.TreeReader

/-!
# Collecting text is reading the forest

A collector that follows the events of a forest places the characters of its runs (`Forest.read`),
each in the frame that the forest says, and in the order of their ends.

The invariant is the one of painters: the events of a forest leave all that lies below as it was.
They append the closed elements to the children of the innermost open element, of which only the
matrices are ever asked for, and the saved frames come back unchanged (`places_run_events`).
-/

namespace Xps

open Journaled TreeReader

/-! ## Closed elements -/

/-- What a collector computes for the element around. Brushes do not matter to it. -/
def TreeReader.compute (name : String) (attributes : Attributes) : Option ComputedData :=
  if ElementKind.ofName name = .matrixTransform then
    some (.transform (TreePainter.matrix attributes).value)
  else none

namespace Forest

/-- The elements of a forest as the element around them sees them. -/
def closed : Forest → List Closed
  | nil => []
  | cons name attributes _ rest => ⟨name, attributes, compute name attributes⟩ :: rest.closed

theorem transformOf_closed (forest : Forest) :
    Closed.transformOf forest.closed "MatrixTransform" = forest.matrix? := by
  induction forest with
  | nil => rfl
  | cons name attributes children rest _ ih =>
    unfold matrix? closed Closed.transformOf Closed.dataOf
    by_cases hname : name = "MatrixTransform"
    · subst hname
      rfl
    · rw [List.find?_cons_of_neg (by simpa using hname), if_neg hname]
      exact ih

end Forest

/-! ## Placing runs -/

variable {σ : Type} [FontProvider σ]

theorem Journaled.Reports.noPlaces {α : Type} {x : Journaled α} (h : x.Reports) :
    x.view Entry.place? = [] := All.view (h.all fun _ => rfl)

theorem Glyphs.noPlaces_font (attributes : Attributes) (context : PageContext)
    (fonts : FontCache σ) : (font attributes context fonts).view Entry.place? = [] := by
  refine All.view ((ofFont_font attributes context fonts).imp fun e he => ?_)
  obtain ⟨reference, he⟩ := he
  cases e <;> first | rfl | cases he

namespace TextCollector

open Journaled.Reports (noPlaces)

/-- Places runs, one after the other. -/
def placeRuns (context : PageContext) (fonts : FontCache σ) (runs : List GlyphRun) :
    Journaled (FontCache σ) :=
  runs.foldlM (fun fonts run => placeGlyphs run.frame context fonts run.attributes) fonts

theorem placeRuns_append (context : PageContext) (fonts : FontCache σ)
    (first last : List GlyphRun) :
    placeRuns context fonts (first ++ last) =
      placeRuns context fonts first >>= fun fonts => placeRuns context fonts last := by
  unfold placeRuns
  rw [List.foldlM_append]

theorem placeRuns_singleton (context : PageContext) (fonts : FontCache σ) (run : GlyphRun) :
    placeRuns context fonts [run] = placeGlyphs run.frame context fonts run.attributes := by
  unfold placeRuns
  simp

/-- Zipping characters with their boxes sets them one after the other. -/
theorem map_zipWith_boxes (typeface : Typeface) (frame : Frame) (size : Size) (y : Float32)
    (x : Float32) (text : List Char) :
    (text.zipWith PlacedChar.mk (boxes typeface.height y x (text.map typeface.advance))).map
        (fun c => ⟨c.character, normalize frame.total size c.box⟩) =
      GlyphRun.setChars typeface frame size y x text := by
  induction text generalizing x with
  | nil => rfl
  | cons c text ih =>
    rw [List.map_cons, boxes, List.zipWith_cons_cons, List.map_cons, ih, GlyphRun.setChars]

theorem line?_eq (provider : σ) (font : Font) (origin : Point) (text : String) :
    line? provider font origin text = (GlyphRun.typeface? provider font).map fun typeface =>
      text.toList.zipWith PlacedChar.mk
        (boxes typeface.height origin.y origin.x (text.toList.map typeface.advance)) := by
  unfold line? GlyphRun.typeface? advances
  cases FontProvider.metrics provider font.id <;> rfl

omit [FontProvider σ] in
/-- A run without text has nothing to place. -/
theorem text?_eq (run : GlyphRun) :
    Glyphs.text? run.attributes = if run.text.isEmpty then none else some run.text := by
  unfold Glyphs.text? GlyphRun.text
  cases run.attributes.get? "UnicodeString" <;> rfl

/-- The characters of a text are placed in their boxes as the frame maps them. -/
theorem placed_placeText_of_text {attributes : Attributes} {text : String}
    (htext : Glyphs.text? attributes = some text) (provider : σ) (font : Font) (frame : Frame)
    (size : Size) :
    (placeText provider font frame size attributes).placed =
      ((line? provider font (Glyphs.origin attributes).value text).getD []).map
        fun c => ⟨c.character, normalize frame.total size c.box⟩ := by
  unfold placeText
  rw [htext]
  have horigin := noPlaces (Glyphs.reports_origin attributes)
  simp only [placed_eq_view, view_bind, horigin, List.nil_append]
  cases line? provider font (Glyphs.origin attributes).value text with
  | none => exact noPlaces (reports_note _)
  | some line =>
    unfold view
    dsimp only
    rw [List.filterMap_map]
    exact congrFun List.filterMap_eq_map line

theorem placed_placeText (provider : σ) (font : Font) (run : GlyphRun) (size : Size) :
    (placeText provider font run.frame size run.attributes).placed =
      ((GlyphRun.typeface? provider font).map (run.set · size)).getD [] := by
  by_cases hempty : run.text.isEmpty = true
  · have hset (typeface : Typeface) : run.set typeface size = [] := by
      unfold GlyphRun.set
      rw [String.isEmpty_iff.1 hempty]
      rfl
    unfold placeText
    rw [text?_eq, if_pos hempty]
    cases GlyphRun.typeface? provider font with
    | none => rfl
    | some typeface => exact (hset typeface).symm
  · have htext : Glyphs.text? run.attributes = some run.text := by
      rw [text?_eq, if_neg hempty]
    rw [placed_placeText_of_text htext, line?_eq]
    cases GlyphRun.typeface? provider font with
    | none => rfl
    | some typeface => exact map_zipWith_boxes typeface run.frame size _ _ _

theorem placed_placeGlyphs (context : PageContext) (fonts : FontCache σ) (run : GlyphRun) :
    (placeGlyphs run.frame context fonts run.attributes).placed =
      (GlyphRun.typeset context fonts [run]).flatMap fun s => s.1.set s.2 context.size := by
  unfold placeGlyphs GlyphRun.typeset GlyphRun.typeset
  rw [placed_eq_view, view_bind, Glyphs.noPlaces_font, List.nil_append]
  rcases (Glyphs.font run.attributes context fonts).value with ⟨_ | font, fonts⟩
  · exact noPlaces (reports_bind.2 ⟨reports_note _, reports_pure _⟩)
  · dsimp only
    rw [view_bind, view_pure, List.append_nil, ← placed_eq_view, placed_placeText]
    cases h : GlyphRun.typeface? fonts.provider font with
    | none => simp [h]
    | some typeface => simp [h]

theorem value_placeGlyphs (frame : Frame) (context : PageContext) (fonts : FontCache σ)
    (attributes : Attributes) :
    (placeGlyphs frame context fonts attributes).value =
      (Glyphs.font attributes context fonts).value.2 := by
  unfold placeGlyphs
  rw [value_bind]
  rcases (Glyphs.font attributes context fonts).value with ⟨_ | font, fonts⟩ <;> rfl

/-- What is placed are the runs that are typeset. -/
theorem placed_placeRuns (context : PageContext) (fonts : FontCache σ) (runs : List GlyphRun) :
    (placeRuns context fonts runs).placed =
      (GlyphRun.typeset context fonts runs).flatMap fun s => s.1.set s.2 context.size := by
  induction runs generalizing fonts with
  | nil => rfl
  | cons run runs ih =>
    rw [← List.singleton_append, placeRuns_append, placeRuns_singleton, placed_eq_view, view_bind,
      ← placed_eq_view, ← placed_eq_view, placed_placeGlyphs, ih, value_placeGlyphs,
      List.singleton_append, GlyphRun.typeset_cons _ _ run runs, List.flatMap_append]

/-! ## Events -/

omit [FontProvider σ] in
/-- The collector behind a forest. -/
def behind (c : TextCollector σ) (forest : Forest) (fonts : FontCache σ) : TextCollector σ :=
  { c with
    scopes := forest.closed.foldl (fun s c => s.attach c.toNode) c.scopes
    frame := (forest.read c.frame).2
    fonts }

omit [FontProvider σ] in
theorem restore_cons {c : TextCollector σ} {before : Frame} {saved : List Frame}
    (h : c.saved = before :: saved) : c.restore = pure { c with frame := before, saved } := by
  unfold restore
  rw [h]

/-- The end of an element places its run and computes its matrix. -/
theorem places_process (context : PageContext) (c : TextCollector σ) {name : String}
    {attributes : Attributes} {children : Forest} {before : Frame} {saved : List Frame}
    (hsaved : savesFrame (.ofName name) → c.saved = before :: saved) :
    Agree Entry.place?
      (fun x fonts => x.1.toClosed = ⟨name, attributes, compute name attributes⟩ ∧
        x.2 = { c with
          frame := leave name children.matrix? before c.frame
          saved := if savesFrame (.ofName name) then saved else c.saved
          fonts })
      (process context c { name, attributes, children := children.closed.map Closed.toNode })
      (placeRuns context c.fonts (run? name attributes c.frame).toList) := by
  let n : Node := { name, attributes, children := children.closed.map Closed.toNode }
  have hclosed : n.closed = children.closed := Node.closed_toNode name attributes children.closed
  have hkind : n.kind = .ofName name := rfl
  show Agree _ _ (process context c n) _
  unfold process run? leave compute
  rw [hkind]
  cases hk : ElementKind.ofName name <;> rw [hk] at hsaved <;> dsimp only [savesFrame]
  case canvas =>
    rw [restore_cons (hsaved rfl)]
    exact .pure ⟨rfl, rfl⟩
  case glyphs =>
    rw [if_pos rfl, Option.toList_some, placeRuns_singleton]
    refine .hidden_bind (noPlaces (reports_composeAttribute c attributes)) ?_
    rw [value_composeAttribute]
    refine (Agree.refl _).bind_hidden ?_
    rintro fonts _ rfl
    have hrestore (frame : Frame) : restore { c with frame, fonts } =
        pure { c with frame := before, saved, fonts } := restore_cons (hsaved rfl)
    rw [hrestore]
    exact ⟨rfl, rfl, rfl⟩
  case canvasRenderTransform | glyphsRenderTransform =>
    have hmatrix : (n.requiredChildTransform "MatrixTransform").value =
        (children.matrix?, (n.takeChildData "MatrixTransform").2) := by
      rw [Painter.requiredChildTransform_eq, hclosed, ← Forest.transformOf_closed]
      exact congrArg (·, _) (value_noteNone _ _)
    refine .hidden_bind (noPlaces (Node.reports_requiredChildTransform _ _)) ?_
    rw [hmatrix]
    cases children.matrix? with
    | none => exact .pure ⟨rfl, rfl⟩
    | some t => exact .pure ⟨rfl, rfl⟩
  case matrixTransform =>
    have hresolve := congrArg value (Painter.resolveMatrix_eq n)
    exact .hidden_bind (noPlaces (Node.reports_resolveMatrix n)) (.pure ⟨hresolve, rfl⟩)
  all_goals exact .pure ⟨rfl, rfl⟩

/-- The end of an element hands what it computed to the element around. -/
theorem places_stop (context : PageContext) (c : TextCollector σ) (name : String)
    (attributes : Attributes) (children : Forest) (fonts : FontCache σ) :
    Agree Entry.place?
      (fun x fonts => x = c.behind (.cons name attributes children .nil) fonts)
      (stop context ((c.inside name attributes).behind children fonts) name)
      (placeRuns context fonts
        (run? name attributes (children.read (enter name attributes c.frame)).2).toList) := by
  let d := (c.inside name attributes).behind children fonts
  have hscopes : d.scopes.nodes =
      { name, attributes, children := children.closed.map Closed.toNode } :: c.scopes.nodes :=
    congrArg ScopeStack.nodes (Painter.foldl_attach children.closed _ _)
  have hsaved (h : savesFrame (.ofName name)) : d.saved = c.frame :: c.saved := if_pos h
  -- What was saved at the start is what is given back, and nothing is left of it.
  have hsame : (if savesFrame (.ofName name) then c.saved else d.saved) = c.saved := by
    by_cases h : savesFrame (.ofName name) = true
    · rw [if_pos h]
    · rw [if_neg h]
      exact if_neg h
  unfold stop
  refine .hidden_bind (noPlaces (ScopeStack.reports_pop _ name)) ?_
  rw [ScopeStack.value_pop_cons hscopes]
  refine (places_process context { d with scopes := ⟨c.scopes.nodes⟩ } hsaved).bind_hidden ?_
  rintro ⟨n, x⟩ later ⟨hn, hx⟩
  refine ⟨rfl, ?_⟩
  dsimp only at hn hx
  rw [hsame] at hx
  rw [hx]
  have hattach (s : ScopeStack) : s.attach n = s.attach n.toClosed.toNode := rfl
  rw [value_pure, hattach, hn]
  rfl

/-- A collector that follows the events of a forest places the runs of the forest. -/
theorem places_run_events (context : PageContext) (forest : Forest) (c : TextCollector σ) :
    Agree Entry.place? (fun x fonts => x = c.behind forest fonts) (run context c forest.events)
      (placeRuns context c.fonts (forest.read c.frame).1) := by
  induction forest generalizing c with
  | nil => exact .pure rfl
  | cons name attributes children rest ihChildren ihRest =>
    -- The children are read by a collector with one more open element, the rest by this one.
    unfold run at ihChildren ihRest ⊢
    rw [Forest.events, List.foldlM_cons]
    refine .hidden_bind (noPlaces (reports_start c name attributes)) ?_
    rw [List.foldlM_append]
    show Agree _ _ (List.foldlM (step context) (c.start name attributes).value _ >>= _) _
    rw [value_start]
    unfold Forest.read
    dsimp only
    rw [placeRuns_append]
    refine (ihChildren (c.inside name attributes)).bind ?_
    rintro _ fonts rfl
    rw [placeRuns_append, List.foldlM_cons]
    refine (places_stop context c name attributes children fonts).bind ?_
    rintro _ fonts rfl
    exact ihRest (c.behind (.cons name attributes children .nil) fonts)

end TextCollector

/-! ## Pages -/

namespace Forest

/-- The runs of a page in the order of their ends. -/
def glyphRuns (forest : Forest) : List GlyphRun := (forest.read ⟨Transform.identity, []⟩).1

end Forest

namespace Page

theorem placed_extractMarkup (context : PageContext) (fonts : FontCache σ) (forest : Forest) :
    (TextCollector.run context { fonts } (.document :: forest.events)).placed =
      (GlyphRun.typeset context fonts forest.glyphRuns).flatMap
        fun s => s.1.set s.2 context.size := by
  have hrun := TextCollector.places_run_events context forest { fonts }
  unfold TextCollector.run at hrun ⊢
  rw [List.foldlM_cons]
  exact hrun.view.trans (TextCollector.placed_placeRuns context fonts _)

/-- A layout of runs has their texts, one after the other. -/
theorem text_flatMap_set (size : Size) (runs : List (GlyphRun × Typeface)) :
    TextLayout.text ⟨runs.flatMap fun s => s.1.set s.2 size⟩ =
      String.join (runs.map fun s => s.1.text) := by
  have hcharacters (s : GlyphRun × Typeface) :
      (s.1.set s.2 size).map PlacedChar.character = s.1.text.toList :=
    s.1.characters_set s.2 size
  unfold TextLayout.text
  rw [← String.toList_inj, String.toList_ofList, String.toList_join, List.map_flatMap,
    List.flatMap_map]
  simp only [hcharacters]

/-- **The text of a page is the text of its forest.** Markup with an error has no text but that
error. The markup of any other page is a forest, and its text are the runs whose font is there and
has metrics, in the order of their ends: one character after the other, each in its place in the
frame that the forest says. -/
theorem extractMarkup_eq_typeset (markup : String) (context : PageContext) (fonts : FontCache σ) :
    match (Markup.events markup).2 with
    | some e => (extractMarkup markup context fonts).value.1 = .error (.invalidMarkup e)
    | none =>
      ∃ (forest : Forest) (layout : TextLayout),
        (Markup.events markup).1 = .document :: forest.events ∧
        (extractMarkup markup context fonts).value.1 = .ok layout ∧
        let shown := GlyphRun.typeset context fonts forest.glyphRuns
        layout.entries = shown.flatMap (fun s => s.1.set s.2 context.size) ∧
          layout.text = String.join (shown.map fun s => s.1.text) := by
  cases herror : (Markup.events markup).2 with
  | some e =>
    unfold extractMarkup
    dsimp only
    rw [herror]
  | none =>
    obtain ⟨forest, hforest⟩ := Markup.exists_forest herror
    have hplaced := placed_extractMarkup context fonts forest
    refine ⟨forest, ⟨_⟩, hforest, ?_, hplaced, ?_⟩
    · unfold extractMarkup
      dsimp only
      rw [herror, hforest]
      rfl
    · refine (congrArg (fun entries => TextLayout.text ⟨entries⟩) hplaced).trans ?_
      exact text_flatMap_set context.size _

end Page

end Xps
