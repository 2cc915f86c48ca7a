import Xps.Proofs.Font.History
import Xps.Proofs.Page.FontAgreement
import Xps.Proofs.Page.FontUse
import Xps.Proofs.Page.TextPlacement

/-!
# Leaving an element out

A canvas, path or run of glyphs does not show in anything but what is painted and placed between its
start and its end. If its events are left out, nothing else changes (`Page.leavesOut_element`).

Behind the element, the state in front of it is back, and the element around it has one more child,
which no container looks at. What is left are the fonts that were loaded inside. Ids of later fonts
are others then, but the fonts are not: both caches recall the same (`FontCache.Recalls`). So the
followers with and without the element are in step from there on (`Follower.InStep`).
-/

namespace Xps

open Journaled FontCache FontProvider

/-- Leaving some events out leaves out what is shown between them, and nothing else changes. -/
def LeavesOut {α V : Type} (shown : Journaled α → List V)
    (run : α → List MarkupEvent → Journaled α) (a : α)
    (before span after : List MarkupEvent) : Prop :=
  let first := run a before
  let middle := run first.value span
  let last := run middle.value after
  shown (run a (before ++ span ++ after)) = shown first ++ shown middle ++ shown last ∧
    shown (run a (before ++ after)) = shown first ++ shown last

namespace Follower

variable {α S V : Type} {v : Follower α S} {f : Entry → Option V} {R : α → α → Prop} {a : α}
  {before span : List MarkupEvent}

theorem run_append (v : Follower α S) (a : α) (first last : List MarkupEvent) :
    v.run a (first ++ last) = v.run a first >>= fun b => v.run b last := by
  unfold run
  rw [List.foldlM_append]

/-- Events behind which the follower is in step with itself in front of them can be left out. -/
theorem leavesOut (hv : v.KeepsScopes) (h : SideBySide v v f R)
    (hspan : InStep v v R (v.run (v.run a before).value span).value (v.run a before).value)
    (after : List MarkupEvent) : LeavesOut (view f) v.run a before span after := by
  have hlast := (agree_run hv hv h hspan after).view
  refine ⟨?_, ?_⟩
  · rw [run_append, run_append, view_bind, view_bind]
    rfl
  · rw [run_append, view_bind, hlast]

/-- The innermost open element is a container if it is one by the events. -/
theorem Tracks.isContainer_head (h : v.Tracks a before)
    (hparent : ∀ o ∈ (opened before).head?, o.kind.isContainer) :
    ∀ parent ∈ (v.scopes (v.run a before).value).nodes.head?, parent.kind.isContainer := by
  intro parent hmem
  cases hnodes : (v.scopes (v.after a before)).nodes with
  | nil =>
    have hnodes : (v.scopes (v.run a before).value).nodes = [] := hnodes
    rw [hnodes] at hmem
    cases hmem
  | cons n nodes =>
    obtain ⟨o, outer, hopened, hkind, -⟩ := h.nodes_eq_cons hnodes
    have hnodes : (v.scopes (v.run a before).value).nodes = n :: nodes := hnodes
    rw [hnodes] at hmem
    cases hmem
    rw [← hkind]
    exact hparent o (by rw [hopened]; rfl)

end Follower

/-! ## Fonts that were loaded before -/

variable {σ : Type} [FontProvider σ] {answersOf : ByteArray → Option FontAnswers}
  {font : String → Option FontAnswers}

theorem FontCache.steady_after {provider : σ} (h : Determines answersOf provider)
    (calls : List FontCall) : Steady answersOf (after provider calls) := by
  have hall (calls : List FontCall) : ∀ {c : FontCache σ}, Steady answersOf c →
      Steady answersOf (c.answerAll calls) := by
    induction calls with
    | nil => exact id
    | cons call calls ih => exact fun hc => ih (hc.resolve call.archive call.part call.size)
  exact hall calls (steady_empty h)

/-! ## Painters -/

namespace Painter

variable {context : PageContext} {p : Painter σ}

theorem recalls_run (h : Recalls answersOf context.archive font p.fonts)
    (events : List MarkupEvent) :
    Recalls answersOf context.archive font (p.run context events).value.fonts := by
  have hself : Alike (RecallAlike answersOf context.archive font) p p := ⟨rfl, rfl, h, h⟩
  exact (Follower.others_run (keepsScopes_follower context)
    (sideBySide_follower context (resolves_recalls font)) hself events).fonts.1

/-- Behind a scope, the state in front of it is back, and the element around it has one more
child. -/
theorem run_scope (context : PageContext) (p : Painter σ) {name : String} (attributes : Attributes)
    (children : Forest) (hscope : (ElementKind.ofName name).isScope) :
    let q := (p.run context (Forest.cons name attributes children .nil).events).value
    q.state = p.state ∧ q.saved = p.saved ∧ ∃ n, q.scopes = p.scopes.attach n := by
  intro q
  have hq : q = _ := congrArg value (run_events context (.cons name attributes children .nil) p)
  rw [hq]
  unfold Forest.paint
  simp only [value_bind, value_pure]
  refine ⟨?_, rfl, _, rfl⟩
  unfold Forest.paint TreePainter.leave
  rw [if_pos hscope]
  rfl

theorem inStep_scope (h : Recalls answersOf context.archive font p.fonts)
    (hparent : ∀ parent ∈ p.scopes.nodes.head?, parent.kind.isContainer) {name : String}
    (attributes : Attributes) (children : Forest) (hscope : (ElementKind.ofName name).isScope) :
    (follower context).InStep (follower context)
      (Alike (RecallAlike answersOf context.archive font))
      (p.run context (Forest.cons name attributes children .nil).events).value p := by
  obtain ⟨hstate, hsaved, n, hscopes⟩ := run_scope context p attributes children hscope
  refine ⟨?_, hstate, hsaved, recalls_run h _, h⟩
  show ScopeStack.Similar (scopes _) p.scopes
  rw [hscopes]
  exact ScopeStack.similar_attach n hparent

end Painter

/-! ## Collectors -/

namespace Forest

/-- A transform of a canvas or of a run of glyphs stands outside of all canvases and runs, so that
the frame that it changes is not given back. -/
def hasLooseTransform : Forest → Bool
  | nil => false
  | cons name _ children rest =>
    (match ElementKind.ofName name with
      | .canvasRenderTransform | .glyphsRenderTransform => true
      | .canvas | .glyphs => false
      | _ => children.hasLooseTransform) || rest.hasLooseTransform

/-- Without a loose transform, the frame is the same in front of a forest and behind it. -/
theorem frame_read {forest : Forest} (h : forest.hasLooseTransform = false) (frame : Frame) :
    (forest.read frame).2 = frame := by
  induction forest generalizing frame with
  | nil => rfl
  | cons name attributes children rest ihChildren ihRest =>
    unfold hasLooseTransform at h
    obtain ⟨hfirst, hrest⟩ := Bool.or_eq_false_iff.1 h
    have hleave : TreeReader.leave name children.matrix? frame
        (children.read (TreeReader.enter name attributes frame)).2 = frame := by
      unfold TreeReader.leave TreeReader.enter
      cases hkind : ElementKind.ofName name <;> rw [hkind] at hfirst <;>
        first | rfl | cases hfirst | exact ihChildren hfirst frame
    unfold read
    dsimp only
    rw [hleave]
    exact ihRest hrest frame

end Forest

namespace TextCollector

variable {context : PageContext} {c : TextCollector σ}

theorem recalls_run (h : Recalls answersOf context.archive font c.fonts)
    (events : List MarkupEvent) :
    Recalls answersOf context.archive font (c.run context events).value.fonts := by
  have hself : Alike (RecallAlike answersOf context.archive font) c c := ⟨rfl, rfl, h, h⟩
  exact (Follower.others_run (keepsScopes_follower context)
    (sideBySide_follower context (resolves_recalls font)) hself events).fonts.1

/-- Behind an element without a loose transform, the frame in front of it is back. -/
theorem inStep_element (h : Recalls answersOf context.archive font c.fonts)
    (hparent : ∀ parent ∈ c.scopes.nodes.head?, parent.kind.isContainer) (name : String)
    (attributes : Attributes) (children : Forest)
    (hloose : (Forest.cons name attributes children .nil).hasLooseTransform = false) :
    (follower context).InStep (follower context)
      (Alike (RecallAlike answersOf context.archive font))
      (c.run context (Forest.cons name attributes children .nil).events).value c := by
  have hrecalls := recalls_run h (Forest.cons name attributes children .nil).events
  have hbehind := (places_run_events context (.cons name attributes children .nil) c).value
  rw [hbehind] at hrecalls ⊢
  exact ⟨ScopeStack.similar_attach _ hparent, Forest.frame_read hloose c.frame, rfl, hrecalls, h⟩

end TextCollector

/-! ## Pages -/

namespace Page

/-- **An element shows nowhere but in itself.** On any page, leaving out a canvas, path or run of
glyphs with all that is inside of it, whose parent is the page, a canvas or an unknown element,
leaves out what is painted from its start to its end, and the characters that are placed there. All
else is painted and placed as before, in the same order. A path that is left out may not have
changed the frame of the text. The cache of fonts may have answered any calls before. -/
theorem leavesOut_element {provider : σ} (hprovider : DataDetermined provider)
    (calls : List FontCall) (context : PageContext) (base : Transform) {name : String}
    (attributes : Attributes) (children : Forest) {before : List MarkupEvent}
    (after : List MarkupEvent) (hscope : (ElementKind.ofName name).isScope)
    (hparent : ∀ o ∈ (opened before).head?, o.kind.isContainer) :
    let fonts := FontCache.after provider calls
    let element := (Forest.cons name attributes children .nil).events
    LeavesOut Journaled.paintCalls (Painter.run context) (painter base fonts) before element after ∧
      ((ElementKind.ofName name = .path → children.hasLooseTransform = false) →
        LeavesOut Journaled.placed (TextCollector.run context) { fonts } before element after) := by
  intro fonts element
  obtain ⟨answersOf, hprovider⟩ := hprovider
  have hfonts := (steady_after hprovider calls).recalls context.archive
  obtain ⟨hpainter, hcollector⟩ := savesExactly context base fonts before
  constructor
  · have hstep := Painter.inStep_scope (p := ((painter base fonts).run context before).value)
      (Painter.recalls_run hfonts before)
      (hpainter.isContainer_head hparent) attributes children hscope
    exact Follower.leavesOut (Painter.keepsScopes_follower context)
      (Painter.sideBySide_follower context (resolves_recalls _)) hstep after
  · intro hpath
    have hloose : (Forest.cons name attributes children .nil).hasLooseTransform = false := by
      unfold Forest.hasLooseTransform
      cases hkind : ElementKind.ofName name <;> rw [hkind] at hscope hpath
      case path => exact Bool.or_eq_false_iff.2 ⟨hpath rfl, rfl⟩
      all_goals first | rfl | cases hscope
    have hstep := TextCollector.inStep_element
      (c := (TextCollector.run context { fonts } before).value)
      (TextCollector.recalls_run hfonts before) (hcollector.isContainer_head hparent) name
      attributes children hloose
    exact Follower.leavesOut (TextCollector.keepsScopes_follower context)
      (TextCollector.sideBySide_follower context (resolves_recalls _)) hstep after

/-- A page with a canvas that moves and paints a square, and with another square behind it. -/
theorem leavesOut_element_twoSquares :
    let square : Attributes := .ofList [("Data", "M0,0 H4 V4 H0 Z"), ("Fill", "#FF0000")]
    let moved : Forest :=
      .cons "Canvas.RenderTransform" {}
        (.cons "MatrixTransform" (.ofList [("Matrix", "1,0,0,1,4,4")]) .nil .nil)
        (.cons "Path" square .nil .nil)
    let before : List MarkupEvent := [.document, .start "FixedPage" {}]
    let element := (Forest.cons "Canvas" {} moved .nil).events
    let after : List MarkupEvent := [.start "Path" square, .stop "Path", .stop "FixedPage"]
    let fonts := FontCache.after ({} : FontDatabase) [⟨⟨fun _ => none⟩, "ink.odttf", 8⟩]
    let start := painter .identity fonts
    DataDetermined ({} : FontDatabase) ∧ (ElementKind.ofName "Canvas").isScope ∧
      (∀ o ∈ (opened before).head?, o.kind.isContainer) ∧
      (start.run glyphsContext (before ++ element ++ after)).paintCalls.length = 2 ∧
      (start.run glyphsContext (before ++ after)).paintCalls.length = 1 ∧
      LeavesOut Journaled.paintCalls (Painter.run glyphsContext) start before element after ∧
      LeavesOut Journaled.placed (TextCollector.run glyphsContext) { fonts } before element
        after := by
  intro square moved before element after fonts start
  have hprovider : DataDetermined ({} : FontDatabase) := ⟨_, FontDatabase.determines {}⟩
  have hscope : (ElementKind.ofName "Canvas").isScope := rfl
  have hparent : ∀ o ∈ (opened before).head?, o.kind.isContainer := by
    rintro o ⟨⟩
    rfl
  obtain ⟨hpaint, hplace⟩ := leavesOut_element hprovider [⟨⟨fun _ => none⟩, "ink.odttf", 8⟩]
    glyphsContext .identity {} moved after hscope hparent
  exact ⟨hprovider, hscope, hparent, by decide +kernel, by decide +kernel, hpaint,
    hplace fun hpath => nomatch hpath⟩

end Page

end Xps
