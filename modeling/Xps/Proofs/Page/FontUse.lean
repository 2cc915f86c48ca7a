import Xps.Font.Database
import Xps.Proofs.Font.Requests
import Xps.Proofs.Page.SavedStates

/-!
# Fonts that a page asks for

Painting a page and reading it use the fonts alike: the page alone says which fonts are asked for
(`Page.fontRequests`), one at the end of each run of glyphs that has a font and a size, and nothing
else that a painter or a collector does comes near the fonts.
-/

namespace Xps

open Journaled

/-! ## Requests of events -/

/-- The run of glyphs that an event ends. -/
def endedGlyphs? (past : List MarkupEvent) : MarkupEvent → Option Attributes
  | .stop _ =>
    match opened past with
    | o :: _ => if o.kind = .glyphs then some o.attributes else none
    | [] => none
  | _ => none

/-- The fonts that events ask for behind others, in order. -/
def fontRequestsAfter (context : PageContext) :
    List MarkupEvent → List MarkupEvent → List (String × Float32)
  | _, [] => []
  | past, e :: events =>
    ((endedGlyphs? past e).bind (Glyphs.request? · context)).toList ++
      fontRequestsAfter context (past ++ [e]) events

namespace Follower

variable {α S σ : Type} [FontProvider σ]

/-- A follower asks for the font of each run of glyphs at its end, and for no other. -/
structure UsesFonts (v : Follower α S) (context : PageContext) (fonts : α → FontCache σ) :
    Prop where
  fonts_withScopes (a : α) (s : ScopeStack) : fonts (v.withScopes a s) = fonts a
  start (a : α) (name : String) (attributes : Attributes) :
    let x := v.step a (.start name attributes)
    x.NoFonts ∧ fonts x.value = fonts a
  processGlyphs (a : α) (n : Node) (hn : n.kind = .glyphs) :
    Agree Entry.fontUse? (fun x c => fonts x.2 = c) (v.process a n)
      ((fonts a).resolveAll context.archive (Glyphs.request? n.attributes context).toList)
  processOther (a : α) (n : Node) (hn : n.kind ≠ .glyphs) :
    let x := v.process a n
    x.NoFonts ∧ fonts x.value.2 = fonts a

namespace UsesFonts

variable {v : Follower α S} {context : PageContext} {fonts : α → FontCache σ} {a : α}
  {past : List MarkupEvent}

theorem agree_stop (hf : v.UsesFonts context fonts) (h : v.Tracks a past) (name : String) :
    Agree Entry.fontUse? (fun b c => fonts b = c) (v.stop (v.after a past) name)
      ((fonts (v.after a past)).resolveAll context.archive
        ((endedGlyphs? past (.stop name)).bind (Glyphs.request? · context)).toList) := by
  unfold stop endedGlyphs?
  refine .hidden_bind (ScopeStack.reports_pop _ name).noFonts.view ?_
  cases hnodes : (v.scopes (v.after a past)).nodes with
  | nil =>
    rw [ScopeStack.value_pop_nil hnodes, h.nodes_eq_nil hnodes]
    exact .pure rfl
  | cons n nodes =>
    obtain ⟨o, outer, hopened, hkind, hattributes, -⟩ := h.nodes_eq_cons hnodes
    rw [ScopeStack.value_pop_cons hnodes, hopened]
    dsimp only
    rw [hkind, hattributes, ← hf.fonts_withScopes (v.after a past) ⟨nodes⟩]
    by_cases hn : n.kind = .glyphs
    · rw [if_pos hn]
      exact (hf.processGlyphs _ n hn).bind_hidden
        fun _ _ hx => ⟨rfl, (hf.fonts_withScopes _ _).trans hx⟩
    · rw [if_neg hn]
      obtain ⟨hview, hfonts⟩ := hf.processOther (v.withScopes (v.after a past) ⟨nodes⟩) n hn
      exact .hidden_bind hview.view (.pure ((hf.fonts_withScopes _ _).trans hfonts))

theorem agree_step (hv : v.Scoped) (hf : v.UsesFonts context fonts) (h : v.Tracks a past)
    (e : MarkupEvent) :
    Agree Entry.fontUse? (fun b c => fonts b = c) (v.step (v.after a past) e)
      ((fonts (v.after a past)).resolveAll context.archive
        ((endedGlyphs? past e).bind (Glyphs.request? · context)).toList) := by
  cases e with
  | document =>
    rw [hv.document]
    exact .pure rfl
  | start name attributes =>
    obtain ⟨hview, hfonts⟩ := hf.start (v.after a past) name attributes
    exact ⟨hview.view, hfonts⟩
  | stop name =>
    rw [hv.stop]
    exact hf.agree_stop h name

/-- The events ask for their fonts one after the other. -/
theorem agree_run (hv : v.Scoped) (hf : v.UsesFonts context fonts) (h : v.Tracks a past)
    (events : List MarkupEvent) :
    Agree Entry.fontUse? (fun b c => fonts b = c) (v.run (v.after a past) events)
      ((fonts (v.after a past)).resolveAll context.archive
        (fontRequestsAfter context past events)) := by
  induction events generalizing past with
  | nil => exact .pure rfl
  | cons e events ih =>
    have hstep := hf.agree_step hv h e
    have hrest := ih (h.concat hv e)
    rw [after_concat, hstep.value] at hrest
    rw [fontRequestsAfter, FontCache.resolveAll_append, run, List.foldlM_cons]
    exact hstep.bind_value hrest

end UsesFonts

end Follower

/-! ## Painters and collectors -/

open Journaled.Reports (noFonts)

variable {σ : Type} [FontProvider σ]

theorem Entry.OfMarks.fontUse? {e : Entry} (h : e.OfMarks) : e.fontUse? = none := by
  cases e <;> first | rfl | cases h

theorem Brush.noFonts_ofImage (attributes : Attributes) (t : Option Transform)
    (context : PageContext) : (ofImage attributes t context).NoFonts := by
  refine (ofImage_ofImage attributes t context).imp fun e he => ?_
  obtain ⟨reference, he⟩ := he
  cases e <;> first | rfl | cases he

namespace Painter

theorem noFonts_paintPath (state : PaintState) (context : PageContext) (n : Node) :
    (paintPath state context n).NoFonts :=
  (ofMarks_paintPath state context n).imp fun _ => Entry.OfMarks.fontUse?

theorem fontUse_paintGlyphs (state : PaintState) (context : PageContext) (fonts : FontCache σ)
    (n : Node) :
    Agree Entry.fontUse? (fun x c => x.2 = c) (paintGlyphs state context fonts n)
      (fonts.resolveAll context.archive (Glyphs.request? n.attributes context).toList) := by
  refine (Glyphs.fontUse_font n.attributes context fonts).bind_hidden ?_
  rintro ⟨found, fonts⟩ _ rfl
  cases found with
  | none => exact ⟨rfl, rfl⟩
  | some font =>
    have hpaint : (paintText state context fonts.provider font n).NoFonts :=
      (ofMarks_paintText state context fonts.provider font n).imp fun _ => Entry.OfMarks.fontUse?
    refine ⟨?_, rfl⟩
    simp [hpaint.view]

omit [FontProvider σ] in
@[simp] theorem fonts_restore (p : Painter σ) : p.restore.value.fonts = p.fonts := by
  unfold restore
  split <;> rfl

theorem usesFonts_follower (context : PageContext) :
    (follower context).UsesFonts context (Painter.fonts (σ := σ)) where
  fonts_withScopes p s := rfl
  start p name attributes := by
    have hvalue := congrArg value (start_eq p name attributes)
    exact ⟨(reports_start p name attributes).noFonts, (congrArg fonts hvalue :)⟩
  processGlyphs p n hn := by
    show Agree _ _ (process context p n) _
    unfold process
    rw [hn]
    refine (fontUse_paintGlyphs p.state context p.fonts n).bind_hidden ?_
    rintro ⟨n, fonts⟩ _ rfl
    have hrestore (p : Painter σ) := (noFonts (reports_restore p)).view
    refine ⟨by simp [hrestore], ?_⟩
    simp
  processOther p n hn := by
    show (process context p n).NoFonts ∧ (process context p n).value.2.fonts = p.fonts
    unfold process
    split
    case h_3 => contradiction
    case h_4 | h_5 | h_6 =>
      simp only [noFonts_bind, value_bind, noFonts (Node.reports_requiredChildTransform _ _),
        true_and]
      split <;> simp [compose]
    case h_12 => simp [Brush.noFonts_ofImage]
    all_goals simp [noFonts, noFonts_paintPath]

end Painter

namespace TextCollector

theorem fontUse_placeGlyphs (frame : Frame) (context : PageContext) (fonts : FontCache σ)
    (attributes : Attributes) :
    Agree Entry.fontUse? (fun c d => c = d) (placeGlyphs frame context fonts attributes)
      (fonts.resolveAll context.archive (Glyphs.request? attributes context).toList) := by
  refine (Glyphs.fontUse_font attributes context fonts).bind_hidden ?_
  rintro ⟨found, fonts⟩ _ rfl
  cases found with
  | none => exact ⟨rfl, rfl⟩
  | some font =>
    have hplace : (placeText fonts.provider font frame context.size attributes).NoFonts :=
      (ofMarks_placeText fonts.provider font frame context.size attributes).imp
        fun _ => Entry.OfMarks.fontUse?
    refine ⟨?_, rfl⟩
    simp [hplace.view]

omit [FontProvider σ] in
@[simp] theorem fonts_restore (c : TextCollector σ) : c.restore.value.fonts = c.fonts := by
  unfold restore
  split <;> rfl

theorem usesFonts_follower (context : PageContext) :
    (follower context).UsesFonts context (TextCollector.fonts (σ := σ)) where
  fonts_withScopes c s := rfl
  start c name attributes := by
    have hvalue := value_start c name attributes
    exact ⟨(reports_start c name attributes).noFonts, (congrArg fonts hvalue :)⟩
  processGlyphs c n hn := by
    show Agree _ _ (process context c n) _
    unfold process
    rw [hn]
    refine .hidden_bind (noFonts (c.reports_composeAttribute n.attributes)).view ?_
    rw [value_composeAttribute]
    refine (fontUse_placeGlyphs _ context c.fonts n.attributes).bind_hidden ?_
    rintro fonts _ rfl
    have hrestore (c : TextCollector σ) := (noFonts (reports_restore c)).view
    refine ⟨by simp [hrestore], ?_⟩
    simp
  processOther c n hn := by
    show (process context c n).NoFonts ∧ (process context c n).value.2.fonts = c.fonts
    unfold process
    split
    case h_2 => contradiction
    case h_3 | h_4 =>
      simp only [noFonts_bind, value_bind, noFonts (Node.reports_requiredChildTransform _ _),
        true_and]
      split <;> simp [compose]
    all_goals simp [noFonts]

end TextCollector

/-! ## Pages -/

namespace Page

/-- The fonts that a page asks for, in order. -/
def fontRequests (markup : String) (context : PageContext) : List (String × Float32) :=
  fontRequestsAfter context [] (Markup.events markup).1

theorem fontUse_paintMarkup (markup : String) (context : PageContext) (base : Transform)
    (fonts : FontCache σ) :
    Agree Entry.fontUse? (fun c d => c = d) (paintMarkup markup context base fonts)
      (fonts.resolveAll context.archive (fontRequests markup context)) := by
  have hscoped := Painter.scoped_follower (σ := σ) context
  have hstart : (Painter.follower context).Tracks (painter base fonts) [] :=
    Follower.tracks_nil rfl rfl
  have hrun := (Painter.usesFonts_follower context).agree_run hscoped hstart
  unfold paintMarkup fontRequests
  rcases Markup.events markup with ⟨events, _ | e⟩
  · exact (hrun events).bind_hidden fun p _ h => ⟨rfl, h⟩
  · exact (hrun events).bind_hidden fun p _ h => ⟨by simp [(noFonts (reports_note _)).view], h⟩

theorem fontUse_renderMarkup (markup : String) (context : PageContext) (fonts : FontCache σ)
    {target : PixelSize} (h : Canvas.fits target) :
    Agree Entry.fontUse? (fun x c => x.2 = c) (renderMarkup markup context fonts target)
      (fonts.resolveAll context.archive (fontRequests markup context)) := by
  have hpaint := fontUse_paintMarkup markup context (pageScale context.size target) fonts
  unfold renderMarkup Canvas.blank?
  rw [if_pos h]
  exact ⟨hpaint.view, hpaint.value⟩

theorem fontUse_extractMarkup (markup : String) (context : PageContext) (fonts : FontCache σ) :
    Agree Entry.fontUse? (fun x c => x.2 = c) (extractMarkup markup context fonts)
      (fonts.resolveAll context.archive (fontRequests markup context)) := by
  have hscoped := TextCollector.scoped_follower (σ := σ) context
  have hstart : (TextCollector.follower context).Tracks { fonts } [] :=
    Follower.tracks_nil rfl rfl
  have hrun := (TextCollector.usesFonts_follower context).agree_run hscoped hstart
    (Markup.events markup).1
  exact ⟨hrun.view, hrun.value⟩

/-- **Painting a page and reading it use the fonts identically.** From the same cache, both make the
requests of the page in their order, load the same data, and leave the same cache, whatever else
they do and whether or not the markup is well-formed. So the one that comes second loads nothing. -/
theorem fontUses_render_eq_extract (markup : String) (context : PageContext) (fonts : FontCache σ)
    (target : PixelSize) (h : Canvas.fits target) :
    let requested := fonts.resolveAll context.archive (fontRequests markup context)
    let rendered := renderMarkup markup context fonts target
    let extracted := extractMarkup markup context fonts
    let renderedNext := renderMarkup markup context extracted.value.2 target
    let extractedNext := extractMarkup markup context rendered.value.2
    (rendered.fontUses = requested.fontUses ∧ extracted.fontUses = requested.fontUses) ∧
      (rendered.loads = extracted.loads ∧ rendered.value.2 = extracted.value.2) ∧
      (renderedNext.loads = [] ∧ renderedNext.value.2 = extracted.value.2) ∧
      (extractedNext.loads = [] ∧ extractedNext.value.2 = rendered.value.2) := by
  intro requested rendered extracted renderedNext extractedNext
  have hrendered := fontUse_renderMarkup markup context fonts h
  have hextracted := fontUse_extractMarkup markup context fonts
  refine ⟨⟨hrendered.view, hextracted.view⟩, ⟨?_, ?_⟩, ?_, ?_⟩
  · exact (loads_congr hrendered.view).trans (loads_congr hextracted.view).symm
  · exact hrendered.value.trans hextracted.value.symm
  · have hnext := fontUse_renderMarkup markup context extracted.value.2 h
    obtain ⟨hvalue, hloads⟩ := FontCache.resolveAll_again hextracted.value
    exact ⟨(loads_congr hnext.view).trans hloads, hnext.value.trans hvalue⟩
  · have hnext := fontUse_extractMarkup markup context rendered.value.2
    obtain ⟨hvalue, hloads⟩ := FontCache.resolveAll_again hrendered.value
    exact ⟨(loads_congr hnext.view).trans hloads, hnext.value.trans hvalue⟩

/-- A page with one run of glyphs, whose font part holds something else. -/
def glyphsMarkup : String :=
  "<FixedPage><Glyphs FontUri=\"/ink.odttf\" FontRenderingEmSize=\"12\" UnicodeString=\"Ink\"/>" ++
    "</FixedPage>"

def glyphsContext : PageContext where
  archive := MemoryArchive.toArchive (MemoryArchive.insert {} "ink.odttf" "no font".toUTF8)
  partName := "1.fpage"
  size := ⟨8, 8, by decide +kernel, by decide +kernel, by decide +kernel, by decide +kernel⟩
  options := {}

/-- The part is tried once, by whichever comes first. -/
theorem fontUses_render_eq_extract_glyphsMarkup :
    let target : PixelSize := ⟨8, 8, by decide, by decide⟩
    let fonts : FontCache FontDatabase := ⟨{}, []⟩
    let requested := fonts.resolveAll glyphsContext.archive
      (fontRequests glyphsMarkup glyphsContext)
    let rendered := renderMarkup glyphsMarkup glyphsContext fonts target
    let extracted := extractMarkup glyphsMarkup glyphsContext fonts
    let renderedNext := renderMarkup glyphsMarkup glyphsContext extracted.value.2 target
    let extractedNext := extractMarkup glyphsMarkup glyphsContext rendered.value.2
    Canvas.fits target ∧ extracted.loads.length = 1 ∧
      (rendered.fontUses = requested.fontUses ∧ extracted.fontUses = requested.fontUses) ∧
      (rendered.loads = extracted.loads ∧ rendered.value.2 = extracted.value.2) ∧
      (renderedNext.loads = [] ∧ renderedNext.value.2 = extracted.value.2) ∧
      (extractedNext.loads = [] ∧ extractedNext.value.2 = rendered.value.2) := by
  intro target fonts
  have h : Canvas.fits target := by decide
  exact ⟨h, by decide +kernel, fontUses_render_eq_extract glyphsMarkup glyphsContext fonts target h⟩

end Page

end Xps
