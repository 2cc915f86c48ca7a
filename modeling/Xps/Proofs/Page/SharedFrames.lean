import Xps.Proofs.Page.FollowedFrames
import Xps.Proofs.Page.FontUse

/-!
# Ink and text share their frames

A painter takes paths for scopes and composes their transforms, a collector does neither. Still, if
canvases, runs of glyphs and their transforms stand outside of paths, and transforms of paths inside
of them (`PathsApart`), both have composed the same transforms onto their bases at each run of
glyphs: a run is painted where its characters are found (`composed_paint_eq_place`).

The invariant (`Page.SharesFrames`) is carried from all shorter beginnings of the events to the next
one, since the end of a scope gives back the frame in front of it, wherever that was. Inside of a
path the two frames differ, and the one of the collector stays what it was in front of the path.
-/

namespace Xps

open Journaled

variable {σ : Type} [FontProvider σ]

/-! ## Paths apart from runs of glyphs -/

/-- Some path is open. -/
def InPath (around : List OpenElement) : Prop := ∃ o ∈ around, o.kind = .path

instance (around : List OpenElement) : Decidable (InPath around) :=
  inferInstanceAs (Decidable (∃ o ∈ around, o.kind = .path))

/-- Where an element may start: what belongs to canvases and runs of glyphs outside of paths, and
what belongs to paths inside of them. -/
def StandsApart (around : List OpenElement) : ElementKind → Prop
  | .canvas | .glyphs | .canvasRenderTransform | .glyphsRenderTransform => ¬ InPath around
  | .pathRenderTransform => InPath around
  | _ => True

instance (around : List OpenElement) : (kind : ElementKind) → Decidable (StandsApart around kind)
  | .canvas | .glyphs | .canvasRenderTransform | .glyphsRenderTransform =>
    inferInstanceAs (Decidable (¬ InPath around))
  | .pathRenderTransform => inferInstanceAs (Decidable (InPath around))
  | .fixedPage | .path | .pathFill | .pathStroke | .glyphsFill | .matrixTransform
  | .solidColorBrush | .imageBrush | .imageBrushTransform | .unknown => .isTrue trivial

/-- An event that starts an element does so where it may. -/
def StartsApart (around : List OpenElement) : MarkupEvent → Prop
  | .start name _ => StandsApart around (.ofName name)
  | .document | .stop _ => True

instance (around : List OpenElement) : (e : MarkupEvent) → Decidable (StartsApart around e)
  | .start name _ => inferInstanceAs (Decidable (StandsApart around (.ofName name)))
  | .document | .stop _ => .isTrue trivial

/-- Every element of some events starts where it may. -/
def PathsApart (events : List MarkupEvent) : Prop :=
  ∀ (past : List MarkupEvent) (e : MarkupEvent), past ++ [e] <+: events →
    StartsApart (opened past) e

theorem pathsApart_iff {events : List MarkupEvent} :
    PathsApart events ↔ ∀ i : Fin events.length, StartsApart (opened (events.take i)) events[i] := by
  constructor
  · intro h i
    refine h _ _ ?_
    rw [Fin.getElem_fin, List.take_append_getElem]
    exact List.take_prefix _ _
  · rintro h past e ⟨later, rfl⟩
    have hi := h ⟨past.length, by simp⟩
    simpa using hi

instance (events : List MarkupEvent) : Decidable (PathsApart events) :=
  decidable_of_iff _ pathsApart_iff.symm

theorem PathsApart.of_prefix {past events : List MarkupEvent} (h : PathsApart events)
    (hpast : past <+: events) : PathsApart past :=
  fun q e hq => h q e (hq.trans hpast)

theorem PathsApart.standsApart {events : List MarkupEvent} (h : PathsApart events)
    {o : OpenElement} {outer : List OpenElement} (ho : opened events = o :: outer) :
    StandsApart outer o.kind := by
  obtain ⟨later, hevents⟩ := mem_opened (ho ▸ List.mem_cons_self : o ∈ opened events)
  rw [← opened_before ho]
  exact h o.before (.start o.name o.attributes) ⟨later, by rw [hevents, List.append_assoc]; rfl⟩

namespace Page

variable {τ : Type} [FontProvider τ]

section

variable (context : PageContext) (base : Transform) (fonts : FontCache σ) (others : FontCache τ)

/-- The painter of an empty page after some events. -/
def paintedBy (past : List MarkupEvent) : Painter σ :=
  (Painter.follower context).after (painter base fonts) past

/-- The collector of an empty page after some events. -/
def readBy (past : List MarkupEvent) : TextCollector τ :=
  (TextCollector.follower context).after { fonts := others } past

/-- Outside of paths a painter and a collector have composed the same, and inside of a path the
frame of the collector is the one in front of it. -/
structure SharesFrames (past : List MarkupEvent) : Prop where
  sketches : (paintedBy context base fonts past).scopes.sketches =
    (readBy context others past).scopes.sketches
  composed (h : ¬ InPath (opened past)) :
    (paintedBy context base fonts past).state.frame.composed =
      (readBy context others past).frame.composed
  inPath {o : OpenElement} (ho : o ∈ opened past) (hpath : o.kind = .path) :
    (readBy context others past).frame = (readBy context others o.before).frame

theorem savesExactly_paintedBy (past : List MarkupEvent) :
    (Painter.follower context).SavesExactly (painter base fonts) past :=
  (Painter.scoped_follower context).savesExactly_of_fresh rfl rfl past

theorem savesExactly_readBy (past : List MarkupEvent) :
    (TextCollector.follower context).SavesExactly { fonts := others } past :=
  (TextCollector.scoped_follower context).savesExactly_of_fresh rfl rfl past

variable {context base fonts others} {past : List MarkupEvent}

theorem sharesFrames_nil : SharesFrames context base fonts others [] :=
  ⟨rfl, fun _ => rfl, fun ho => nomatch ho⟩

theorem sketches_concat (h : SharesFrames context base fonts others past) (e : MarkupEvent) :
    (paintedBy context base fonts (past ++ [e])).scopes.sketches =
      (readBy context others (past ++ [e])).scopes.sketches := by
  unfold paintedBy readBy
  rw [Follower.after_concat, Follower.after_concat]
  exact Follower.sketches_step (Painter.scoped_follower context)
    (TextCollector.scoped_follower context) (Painter.handsMatrices_follower context)
    (TextCollector.handsMatrices_follower context) h.sketches e

theorem SharesFrames.concat_start (h : SharesFrames context base fonts others past) (name : String)
    (attributes : Attributes) (happart : StandsApart (opened past) (.ofName name)) :
    SharesFrames context base fonts others (past ++ [.start name attributes]) := by
  have hpainted : (paintedBy context base fonts (past ++ [.start name attributes])).state.frame =
      TreeReader.enter name attributes (paintedBy context base fonts past).state.frame := by
    unfold paintedBy
    rw [Follower.after_concat]
    exact (Painter.frames_follower context).start _ name attributes
  have hread : (readBy context others (past ++ [.start name attributes])).frame =
      TreeReader.enter name attributes (readBy context others past).frame := by
    unfold readBy
    rw [Follower.after_concat]
    exact (TextCollector.frames_follower context).start _ name attributes
  refine ⟨sketches_concat h _, fun hout => ?_, fun {o} ho hpath => ?_⟩
  · rw [opened_start] at hout
    rw [hpainted, hread]
    exact TreeReader.composed_enter (h.composed fun ⟨o, ho, hpath⟩ => hout ⟨o, .tail _ ho, hpath⟩) _ _
  · rw [opened_start] at ho
    -- A canvas does not start inside of a path, nor is it one.
    have hcanvas : ElementKind.ofName name ≠ .canvas := by
      intro hcanvas
      rw [hcanvas] at happart
      rcases List.mem_cons.1 ho with rfl | ho
      · exact absurd (hcanvas.symm.trans hpath) (by decide)
      · exact happart ⟨o, ho, hpath⟩
    rw [hread, TreeReader.enter, if_neg hcanvas]
    rcases List.mem_cons.1 ho with rfl | ho
    · rfl
    · exact h.inPath ho hpath

/-- The end of an element that saves no state composes the same matrix on both sides, if any. -/
theorem SharesFrames.exists_matrix (h : SharesFrames context base fonts others past)
    {o : OpenElement} {outer : List OpenElement} (ho : opened past = o :: outer) (name : String) :
    let p := paintedBy context base fonts past
    let c := readBy context others past
    ∃ matrix : Option Transform,
      (o.kind.isScope = false →
        (paintedBy context base fonts (past ++ [.stop name])).state.frame =
          if o.kind.isRenderTransform then matrix.elim p.state.frame p.state.frame.compose
          else p.state.frame) ∧
      (TextCollector.savesFrame o.kind = false →
        (readBy context others (past ++ [.stop name])).frame =
          if TextCollector.composesMatrix o.kind then matrix.elim c.frame c.frame.compose
          else c.frame) := by
  intro p c
  have hpainted := (savesExactly_paintedBy context base fonts past).toTracks
  have hread := (savesExactly_readBy context others past).toTracks
  cases hn : p.scopes.nodes with
  | nil => cases ho.symm.trans (hpainted.nodes_eq_nil hn)
  | cons n nodes =>
    cases hm : c.scopes.nodes with
    | nil => cases ho.symm.trans (hread.nodes_eq_nil hm)
    | cons m others =>
      obtain ⟨_, _, hon, hkind, -⟩ := hpainted.nodes_eq_cons hn
      obtain ⟨rfl, rfl⟩ := List.cons.inj (ho.symm.trans hon)
      obtain ⟨_, _, hom, hkind', -⟩ := hread.nodes_eq_cons hm
      obtain ⟨rfl, rfl⟩ := List.cons.inj (ho.symm.trans hom)
      have hsketches : n.sketch :: nodes.map Node.sketch = m.sketch :: others.map Node.sketch := by
        rw [← List.map_cons, ← List.map_cons, ← hn, ← hm]
        exact h.sketches
      have hmatrix := Node.transformOf_congr (congrArg (·.2.2) (List.cons.inj hsketches).1)
      refine ⟨Closed.transformOf n.closed "MatrixTransform", fun hsaves => ?_, fun hsaves => ?_⟩
      · have hstop := (Painter.frames_follower context).stop (Painter.scoped_follower context) hn
          (hkind ▸ hsaves) name
        rwa [← hkind] at hstop
      · have hstop := (TextCollector.frames_follower context).stop
          (TextCollector.scoped_follower context) hm (hkind' ▸ hsaves) name
        rwa [← hkind', ← hmatrix] at hstop

theorem composed_elim {f g : Frame} (h : f.composed = g.composed) (matrix : Option Transform) :
    (matrix.elim f f.compose).composed = (matrix.elim g g.compose).composed := by
  cases matrix with
  | none => exact h
  | some t => exact congrArg (· ++ [t]) h

/-- Behind the end of an element that is not inside of a path. -/
theorem SharesFrames.composed_stop (h : SharesFrames context base fonts others past)
    {o : OpenElement} {outer : List OpenElement} (ho : opened past = o :: outer)
    (hbefore : SharesFrames context base fonts others o.before) (hstands : StandsApart outer o.kind)
    (houter : ¬ InPath outer) (name : String) :
    (paintedBy context base fonts (past ++ [.stop name])).state.frame.composed =
      (readBy context others (past ++ [.stop name])).frame.composed := by
  obtain ⟨matrix, hpainted, hread⟩ := h.exists_matrix ho name
  have hpaintedScope (hscope : o.kind.isScope) :
      (paintedBy context base fonts (past ++ [.stop name])).state.frame =
        (paintedBy context base fonts o.before).state.frame :=
    congrArg PaintState.frame
      ((savesExactly_paintedBy context base fonts past).restored name ho hscope)
  have hreadScope (hscope : TextCollector.savesFrame o.kind) :
      (readBy context others (past ++ [.stop name])).frame =
        (readBy context others o.before).frame :=
    (savesExactly_readBy context others past).restored name ho hscope
  have hfront := hbefore.composed (by rwa [opened_before ho])
  have hinside (hkind : o.kind ≠ .path) :
      (paintedBy context base fonts past).state.frame.composed =
        (readBy context others past).frame.composed := by
    refine h.composed ?_
    rw [ho]
    rintro ⟨o', ho', hpath⟩
    rcases List.mem_cons.1 ho' with rfl | ho'
    · exact hkind hpath
    · exact houter ⟨o', ho', hpath⟩
  cases hk : o.kind
  case canvas | glyphs =>
    rw [hpaintedScope (by rw [hk]; rfl), hreadScope (by rw [hk]; rfl)]
    exact hfront
  case path =>
    -- Only the painter gives a frame back, but the collector's is still the one in front.
    rw [hpaintedScope (by rw [hk]; rfl), hread (by rw [hk]; rfl), hk]
    exact hfront.trans (congrArg Frame.composed (h.inPath (ho ▸ List.mem_cons_self) hk).symm)
  case canvasRenderTransform | glyphsRenderTransform =>
    rw [hpainted (by rw [hk]; rfl), hread (by rw [hk]; rfl), hk]
    exact composed_elim (hinside (by rw [hk]; decide)) matrix
  case pathRenderTransform =>
    rw [hk] at hstands
    exact absurd hstands houter
  all_goals
    rw [hpainted (by rw [hk]; rfl), hread (by rw [hk]; rfl), hk]
    exact hinside (by rw [hk]; decide)

/-- Behind the end of an element inside of a path, the collector's frame is what it was. -/
theorem SharesFrames.frame_stop (h : SharesFrames context base fonts others past)
    {o : OpenElement} {outer : List OpenElement} (ho : opened past = o :: outer)
    (hstands : StandsApart outer o.kind) (houter : InPath outer) (name : String) :
    (readBy context others (past ++ [.stop name])).frame = (readBy context others past).frame := by
  obtain ⟨_, -, hread⟩ := h.exists_matrix ho name
  cases hk : o.kind <;> rw [hk] at hstands hread
  case canvas | glyphs | canvasRenderTransform | glyphsRenderTransform =>
    exact absurd houter hstands
  all_goals exact hread rfl

theorem SharesFrames.concat_stop (h : ∀ q, q <+: past → SharesFrames context base fonts others q)
    (happart : PathsApart past) (name : String) :
    SharesFrames context base fonts others (past ++ [.stop name]) := by
  have hpast := h past List.prefix_rfl
  refine ⟨sketches_concat hpast _, fun hout => ?_, fun {path} hmem hpath => ?_⟩
  · rw [opened_stop] at hout
    cases ho : opened past with
    | nil =>
      unfold paintedBy readBy
      rw [(savesExactly_paintedBy context base fonts past).after_surplus
          (Painter.scoped_follower context) ho name,
        (savesExactly_readBy context others past).after_surplus
          (TextCollector.scoped_follower context) ho name]
      exact hpast.composed (by rwa [ho] at hout ⊢)
    | cons o outer =>
      obtain ⟨later, hlater⟩ := mem_opened (ho ▸ List.mem_cons_self : o ∈ opened past)
      rw [ho] at hout
      exact hpast.composed_stop ho (h o.before ⟨_, hlater.symm⟩) (happart.standsApart ho) hout name
  · rw [opened_stop] at hmem
    cases ho : opened past with
    | nil =>
      rw [ho] at hmem
      cases hmem
    | cons o outer =>
      rw [ho] at hmem
      rw [hpast.frame_stop ho (happart.standsApart ho) ⟨path, hmem, hpath⟩]
      exact hpast.inPath (ho ▸ List.mem_cons_of_mem _ hmem) hpath

theorem SharesFrames.concat_document (h : SharesFrames context base fonts others past) :
    SharesFrames context base fonts others (past ++ [.document]) := by
  have hpainted : paintedBy context base fonts (past ++ [.document]) =
      paintedBy context base fonts past := Follower.after_concat _ _ _ _
  have hread : readBy context others (past ++ [.document]) = readBy context others past :=
    Follower.after_concat _ _ _ _
  refine ⟨?_, ?_, ?_⟩ <;> rw [hread]
  · rw [hpainted, h.sketches]
  · rw [hpainted, opened_document]
    exact h.composed
  · rw [opened_document]
    exact h.inPath

theorem sharesFrames {events : List MarkupEvent} (h : PathsApart events) :
    SharesFrames context base fonts others events := by
  induction events using Follower.prefix_induction with
  | nil => exact sharesFrames_nil
  | concat past e ih =>
    have hpast := h.of_prefix (List.prefix_append past [e])
    have hbefore (q : List MarkupEvent) (hq : q <+: past) :
        SharesFrames context base fonts others q := ih q hq (hpast.of_prefix hq)
    cases e with
    | document => exact (hbefore past List.prefix_rfl).concat_document
    | start name attributes =>
      exact (hbefore past List.prefix_rfl).concat_start name attributes
        (h past (.start name attributes) List.prefix_rfl)
    | stop name => exact .concat_stop hbefore hpast name

/-! ## Runs of glyphs -/

end

end Page

/-- Whatever is painted is painted in a frame. -/
def Entry.PaintsIn (frame : Frame) : Entry → Prop
  | paint call => call.frame = frame
  | _ => True

theorem Journaled.Reports.paintsIn {α : Type} {x : Journaled α} (h : x.Reports) (frame : Frame) :
    x.All (Entry.PaintsIn frame) := h.all fun _ => trivial

theorem Journaled.All.frame_eq {α : Type} {x : Journaled α} {frame : Frame}
    (h : x.All (Entry.PaintsIn frame)) : ∀ call ∈ x.paintCalls, call.frame = frame := by
  intro call hcall
  obtain ⟨e, he, hpaint⟩ := List.mem_filterMap.1 hcall
  cases e with
  | paint call' =>
    cases hpaint
    exact h _ he
  | _ => cases hpaint

open Journaled.Reports (paintsIn)

namespace TreePainter

theorem paintsIn_paintText (state : PaintState) (context : PageContext) (provider : σ) (font : Font)
    (attributes : Attributes) (children : List Closed) :
    (paintText state context provider font attributes children).All
      (Entry.PaintsIn (TreeReader.withAttribute attributes state.frame)) := by
  have hbrush : (brush attributes children "Fill" "Glyphs.Fill").Reports := by
    unfold brush
    split <;> simp
  unfold paintText
  simp only [all_bind, paintsIn hbrush, true_and]
  split
  · simp
  · simp only [all_bind, paintsIn (Brush.reports_opacity _),
      paintsIn (Painter.reports_elementFrame _ _), true_and]
    split
    · simp
    · simp only [all_bind, paintsIn (Glyphs.reports_origin _), true_and]
      split <;> simp [Painter.call, Entry.PaintsIn, TreeReader.withAttribute]

theorem paintsIn_paintGlyphs (context : PageContext) (attributes : Attributes)
    (children : List Closed) (d : Drawing σ) :
    (paintGlyphs context attributes children d).All
      (Entry.PaintsIn (TreeReader.withAttribute attributes d.state.frame)) := by
  have hfont : (Glyphs.font attributes context d.fonts).All
      (Entry.PaintsIn (TreeReader.withAttribute attributes d.state.frame)) :=
    (Glyphs.ofFont_font attributes context d.fonts).imp fun e ⟨_, he⟩ => by
      cases e <;> trivial
  unfold paintGlyphs
  simp only [all_bind, hfont, true_and]
  split
  · simp
  · simp [paintsIn_paintText]

end TreePainter

/-- A run is painted in the frame of its end. -/
theorem Painter.frame_of_stop_glyphs (context : PageContext) (p : Painter σ) {n : Node}
    {nodes : List Node} (hnodes : p.scopes.nodes = n :: nodes) (hn : n.kind = .glyphs)
    (name : String) :
    ∀ call ∈ (p.stop context name).paintCalls,
      call.frame = TreeReader.withAttribute n.attributes p.state.frame := by
  have hpaint : (paintGlyphs p.state context p.fonts n).All
      (Entry.PaintsIn (TreeReader.withAttribute n.attributes p.state.frame)) := by
    have h := (TreePainter.paintsIn_paintGlyphs context n.attributes n.closed ⟨p.state, p.fonts⟩)
    have heq := paintGlyphs_eq p.state context p.fonts n
    rw [← all_map, heq]
    exact all_bind.2 ⟨h, all_pure _⟩
  refine All.frame_eq ?_
  unfold stop
  rw [all_bind, ScopeStack.value_pop_cons hnodes]
  refine ⟨paintsIn (ScopeStack.reports_pop _ name) _, ?_⟩
  unfold process
  simp only [hn, all_bind, all_pure, hpaint, paintsIn (reports_restore _), and_self]

/-- The characters of a run are placed in the frame of its end. -/
theorem TextCollector.placed_stop_glyphs (context : PageContext) (c : TextCollector σ) {n : Node}
    {nodes : List Node} (hnodes : c.scopes.nodes = n :: nodes) (hn : n.kind = .glyphs)
    (name : String) :
    (c.stop context name).placed =
      (GlyphRun.typeset context c.fonts
        [⟨n.attributes, TreeReader.withAttribute n.attributes c.frame⟩]).flatMap
          fun s => s.1.set s.2 context.size := by
  rw [← placed_placeGlyphs]
  unfold stop process
  have hpop := (ScopeStack.reports_pop c.scopes name).noPlaces
  have hcompose (c : TextCollector σ) := (reports_composeAttribute c n.attributes).noPlaces
  have hrestore (c : TextCollector σ) := (reports_restore c).noPlaces
  simp only [placed_eq_view, view_bind, hpop, ScopeStack.value_pop_cons hnodes, hn, hcompose,
    value_composeAttribute, hrestore, view_pure, List.nil_append, List.append_nil]
  rfl

namespace Page

variable {τ : Type} [FontProvider τ]

/-- **Ink and text use the same transforms.** If what belongs to paths stands apart from what
belongs to canvases and runs of glyphs, then at the end of each run the painter of an empty page and
its collector have composed the same transforms, that of the run included, onto the base of the page
and onto the identity. In these frames the run is painted, and its characters are placed. -/
theorem composed_paint_eq_place (context : PageContext) (base : Transform) (fonts : FontCache σ)
    (others : FontCache τ) {events : List MarkupEvent} (h : PathsApart events)
    (past : List MarkupEvent) (name : String) (hpast : past ++ [.stop name] <+: events)
    {o : OpenElement} {outer : List OpenElement} (ho : opened past = o :: outer)
    (hglyphs : o.kind = .glyphs) :
    let p := paintedBy context base fonts past
    let c := readBy context others past
    let ink := TreeReader.withAttribute o.attributes p.state.frame
    let text := TreeReader.withAttribute o.attributes c.frame
    ink.composed = text.composed ∧ ink.base = base ∧ text.base = .identity ∧
      (∀ call ∈ (p.stop context name).paintCalls, call.frame = ink) ∧
      (c.stop context name).placed =
        (GlyphRun.typeset context c.fonts [⟨o.attributes, text⟩]).flatMap
          fun s => s.1.set s.2 context.size := by
  intro p c ink text
  have hshares : SharesFrames context base fonts others past :=
    sharesFrames (h.of_prefix ((List.prefix_append _ _).trans hpast))
  have hpainted := savesExactly_paintedBy context base fonts past
  have hread := savesExactly_readBy context others past
  have hout : ¬ InPath (opened past) := by
    have hstands := (h.of_prefix ((List.prefix_append _ _).trans hpast)).standsApart ho
    rw [hglyphs] at hstands
    rw [ho]
    rintro ⟨o', ho', hpath⟩
    rcases List.mem_cons.1 ho' with rfl | ho'
    · cases hglyphs.symm.trans hpath
    · exact hstands ⟨o', ho', hpath⟩
  refine ⟨?_, ?_, ?_, ?_, ?_⟩
  · exact TreeReader.composed_withAttribute (hshares.composed hout) o.attributes
  · refine (TreeReader.base_withAttribute _ _).trans ?_
    exact (Painter.frames_follower context).base_after (Painter.scoped_follower context) rfl rfl past
  · refine (TreeReader.base_withAttribute _ _).trans ?_
    exact (TextCollector.frames_follower context).base_after
      (TextCollector.scoped_follower context) rfl rfl past
  · cases hn : p.scopes.nodes with
    | nil => cases ho.symm.trans (hpainted.nodes_eq_nil hn)
    | cons n nodes =>
      obtain ⟨_, _, hon, hkind, hattributes, -⟩ := hpainted.nodes_eq_cons hn
      obtain ⟨rfl, rfl⟩ := List.cons.inj (ho.symm.trans hon)
      have hframe := p.frame_of_stop_glyphs context hn (hkind ▸ hglyphs) name
      rwa [← hattributes] at hframe
  · cases hn : c.scopes.nodes with
    | nil => cases ho.symm.trans (hread.nodes_eq_nil hn)
    | cons n nodes =>
      obtain ⟨_, _, hon, hkind, hattributes, -⟩ := hread.nodes_eq_cons hn
      obtain ⟨rfl, rfl⟩ := List.cons.inj (ho.symm.trans hon)
      have hplaced := c.placed_stop_glyphs context hn (hkind ▸ hglyphs) name
      rwa [← hattributes] at hplaced

/-- A canvas with a path and a run of glyphs, each of which has a transform of its own. -/
def signEvents : List MarkupEvent :=
  [.document, .start "Canvas" ⟨[("RenderTransform", "2,0,0,2,0,0")]⟩,
    .start "Path" {}, .start "Path.RenderTransform" {},
    .start "MatrixTransform" ⟨[("Matrix", "1,0,0,1,8,8")]⟩,
    .stop "MatrixTransform", .stop "Path.RenderTransform", .stop "Path",
    .start "Glyphs" ⟨[("RenderTransform", "1,0,0,1,4,4"), ("UnicodeString", "XPS")]⟩,
    .start "Glyphs.RenderTransform" {},
    .start "MatrixTransform" ⟨[("Matrix", "0,1,-1,0,0,0")]⟩,
    .stop "MatrixTransform", .stop "Glyphs.RenderTransform", .stop "Glyphs", .stop "Canvas"]

/-- The run is set behind the transforms of the canvas, of its property element and of itself. -/
theorem composed_paint_eq_place_signEvents :
    let past := signEvents.take 13
    let run : OpenElement := ⟨"Glyphs", ⟨[("RenderTransform", "1,0,0,1,4,4"),
      ("UnicodeString", "XPS")]⟩, signEvents.take 8⟩
    let canvas : OpenElement := ⟨"Canvas", ⟨[("RenderTransform", "2,0,0,2,0,0")]⟩, [.document]⟩
    let fonts : FontCache FontDatabase := ⟨{}, []⟩
    let p := paintedBy glyphsContext (.scaling 3 3) fonts past
    let c := readBy glyphsContext fonts past
    let ink := TreeReader.withAttribute run.attributes p.state.frame
    let text := TreeReader.withAttribute run.attributes c.frame
    PathsApart signEvents ∧ past ++ [.stop "Glyphs"] <+: signEvents ∧
      opened past = [run, canvas] ∧ run.kind = .glyphs ∧ text.composed.length = 3 ∧
      ink.composed = text.composed ∧ ink.base = .scaling 3 3 ∧ text.base = .identity ∧
      (∀ call ∈ (p.stop glyphsContext "Glyphs").paintCalls, call.frame = ink) ∧
      (c.stop glyphsContext "Glyphs").placed =
        (GlyphRun.typeset glyphsContext c.fonts [⟨run.attributes, text⟩]).flatMap
          fun s => s.1.set s.2 glyphsContext.size := by
  intro past run canvas fonts
  have happart : PathsApart signEvents := by decide +kernel
  have hpast : past ++ [.stop "Glyphs"] <+: signEvents := by decide +kernel
  have hopened : opened past = [run, canvas] := rfl
  exact ⟨happart, hpast, hopened, rfl, by decide +kernel,
    composed_paint_eq_place glyphsContext (.scaling 3 3) fonts fonts happart past "Glyphs" hpast
      hopened rfl⟩

end Page

end Xps
